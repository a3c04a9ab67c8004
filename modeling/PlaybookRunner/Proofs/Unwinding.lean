import PlaybookRunner.Proofs.Failure

/-!
# The end of a failing run

Phase by phase a run either goes on with nothing open and nothing failed, or it has
stopped. A run that fails has then reported the first failure and the failures of the
module calls around it, and nothing else follows but its end.
-/

namespace PlaybookRunner

variable {σ α β : Type} {host : Host σ} {plays : List Play} {s v : RunState σ}

open Transcript

/-- The deferred task has been dispatched, and its future is settled. -/
def Deferred.Due (host : Host σ) (s : RunState σ) (d : Deferred) : Prop :=
  d.Settled host s.world ∧ d.task ∈ dispatched s.events.toList

/-- The play is one of the run's, and what it deferred is due. -/
structure PlayState.Kept (host : Host σ) (plays : List Play) (s : RunState σ) (c : PlayState) :
    Prop where
  play : c.play ∈ plays
  due : ∀ d ∈ c.deferred, d.Due host s

theorem Deferred.Due.grows {d : Deferred} {L : List Event} (h : d.Due host s)
    (hL : s.Grows host L v) : d.Due host v := by
  refine ⟨h.1.later hL.later, ?_⟩
  rw [hL.events, dispatched_append]
  exact List.mem_append_left _ h.2

theorem PlayState.Kept.grows {c : PlayState} {L : List Event} (h : c.Kept host plays s)
    (hL : s.Grows host L v) : c.Kept host plays v :=
  ⟨h.play, fun d hd => (h.due d hd).grows hL⟩

/-- What the running play has dispatched in between is due as well. -/
theorem PlayState.Kept.extends {L : List Event} (h : s.current.Kept host plays s)
    (hL : s.Extends host L v) : v.current.Kept host plays v := by
  obtain ⟨ds, hds, htasks, hsettled⟩ := hL.current.deferred
  refine ⟨hL.current.play ▸ h.play, ?_⟩
  rw [hds, List.forall_mem_append]
  refine ⟨(h.grows hL.toGrows).due, fun d hd => ⟨hsettled d hd, ?_⟩⟩
  rw [hL.events, dispatched_append, ← htasks]
  exact List.mem_append_right _ (List.mem_map_of_mem hd)

namespace Transcript

theorem OpenIn.failsAt {p : Play} {A before : List Event} {t : Task} {calls : List Task}
    (hp : p ∈ plays) (hA : Calm host A) (h : OpenIn p before t calls) :
    FailsAt plays (A ++ before) t calls := by
  refine .running hp ?_ h.2
  rw [opened_append, hA.closed, h.1, List.append_nil]

/-- The events that open a phase. -/
def openings : List Event := [.startTasks, .finishTasks, .startHandlers]

theorem calm_of_mem_openings {e : Event} (he : e ∈ openings) : Calm host [e] := by
  simp only [openings, List.mem_cons, List.not_mem_nil, or_false] at he
  rcases he with rfl | rfl | rfl <;>
    exact ⟨trivial, rfl, by simp [Event.Closes], fun _ => by simp [Unfailing]⟩

theorem calm_finish {t : Task} {result : TaskResult} (h : host.Honest → result.failed = false) :
    Calm host [.finishTask t (some result)] := by
  refine ⟨trivial, rfl, by simp [Event.Closes], fun hhost => ?_⟩
  simpa [Unfailing] using h hhost

end Transcript

namespace Step

/-- From a state in which all is calm the part goes on to such a state, which fits its
answer, or it stops the run. -/
def Proceeds (host : Host σ) (plays : List Play) (x : Step σ α) (s : RunState σ)
    (post : α → RunState σ → Prop) : Prop :=
  Calm host s.events.toList → x.Ends s fun o v => (∃ L, s.Grows host L v) ∧
    Course (Calm host) (Unwinds host (FailsAt plays)) o v.events.toList ∧
    ∀ a, o = .ok a → post a v

namespace Proceeds

variable {x y : Step σ α} {f : α → Step σ β} {P Q : α → RunState σ → Prop}
  {R : β → RunState σ → Prop}

theorem pure {a : α} (h : P a s) : Proceeds host plays (pure a) s P :=
  fun hs => ⟨⟨[], .refl s⟩, .ok hs.prompt hs, by rintro _ ⟨⟩; exact h⟩

theorem getThen {g : RunState σ → Step σ α} (h : Proceeds host plays (g s) s P) :
    Proceeds host plays (get >>= g) s P := h

theorem bind (hx : Proceeds host plays x s P)
    (hf : ∀ a v L, s.Grows host L v → P a v → Proceeds host plays (f a) v R) :
    Proceeds host plays (x >>= f) s R := by
  intro hs
  apply (hx hs).bind
  · rintro a v ⟨⟨L, hL⟩, hcourse, hpost⟩
    apply (hf a v L hL (hpost a rfl) (hcourse.well a rfl)).mono
    rintro o w ⟨⟨L', hL'⟩, hend⟩
    exact ⟨⟨L ++ L', hL.trans hL'⟩, hend⟩
  · rintro e v ⟨hgrows, hcourse, -⟩
    exact ⟨hgrows, hcourse.error, by simp⟩

/-- A part that goes on from another state without an event in between. -/
theorem shift (s' : RunState σ) (hgrows : s.Grows host [] s')
    (hrun : x.run.run s = y.run.run s') (h : Proceeds host plays y s' P) :
    Proceeds host plays x s P := by
  intro hs
  have hevents : s'.events.toList = s.events.toList := by rw [hgrows.events, List.append_nil]
  have hends := h (hevents ▸ hs)
  unfold Ends at hends ⊢
  rw [hrun]
  obtain ⟨⟨L, hL⟩, hrest⟩ := hends
  exact ⟨⟨L, hgrows.trans hL⟩, hrest⟩

theorem of_tells (hx : Tells host s.current.play x) (hkept : s.current.Kept host plays s) :
    Proceeds host plays x s fun _ v => v.current.Kept host plays v := by
  intro hs
  apply (hx s rfl).mono
  rintro o v ⟨L, hL, hcourse⟩
  refine ⟨⟨L, hL.toGrows⟩, ?_, fun _ _ => hkept.extends hL⟩
  rw [hL.events]
  exact hcourse.after hs.prompt (fun hsmooth => hs.append hsmooth.toCalm) fun _ =>
    .after hs fun _ _ _ => OpenIn.failsAt hkept.play hs

theorem emit {e : Event} (he : e ∈ openings) :
    Proceeds host plays (Step.emit e) s fun _ v => v = s.push e := by
  intro hs
  have hgrows := s.grows_push host e
  have hcalm : Calm host (s.push e).events.toList := by
    rw [hgrows.events]
    exact hs.append (calm_of_mem_openings he)
  exact ⟨⟨[e], hgrows⟩, .ok hcalm.prompt hcalm, fun _ _ => rfl⟩

end Proceeds

end Step

namespace Runner

open Step

variable {setup : Setup σ}

/-- A phase goes through its plays one by one, and what holds of each state of a play
is not lost on the way. -/
theorem proceeds_mapM {f : α → Step σ β} {P : RunState σ → α → Prop} {Q : RunState σ → β → Prop}
    (hP : ∀ {s v L a}, s.Grows host L v → P s a → P v a)
    (hQ : ∀ {s v L b}, s.Grows host L v → Q s b → Q v b)
    (hf : ∀ a s, P s a → Proceeds host plays (f a) s fun b v => Q v b) {as : List α}
    (has : ∀ a ∈ as, P s a) : Proceeds host plays (as.mapM f) s fun bs v => ∀ b ∈ bs, Q v b := by
  induction as generalizing s with
  | nil => exact .pure (by simp)
  | cons a as ih =>
    obtain ⟨ha, has⟩ := List.forall_mem_cons.mp has
    rw [List.mapM_cons]
    apply (hf a s ha).bind
    intro b v L hL hb
    apply (ih fun a' ha' => hP hL (has a' ha')).bind
    intro bs w L' hL' hbs
    exact .pure (List.forall_mem_cons.mpr ⟨hQ hL' hb, hbs⟩)

theorem runPlay_proceeds {p : Play} (hp : p ∈ plays) (s : RunState σ) :
    Proceeds setup.host plays (runPlay setup p) s fun st v => st.Kept setup.host plays v := by
  let table := s.world.newTable p.vars
  let s' : RunState σ := { s with world := table.2, current := { play := p, table := table.1 } }
  have hgrows : s.Grows setup.host [] s' := ⟨by simp [s'], [], .quiet rfl rfl⟩
  refine .shift s' hgrows rfl (y := do
    let _ ← anyChanged (runPlayTask setup) p.tasks
    return (← get).current) ?_
  have htasks : Tells setup.host p (anyChanged (runPlayTask setup) p.tasks) :=
    tells_anyChanged p.tasks (tells_runPlayTask p)
  apply (Proceeds.of_tells (s := s') htasks ⟨hp, by simp [s']⟩).bind
  intro changed v L _ hkept
  exact .getThen (.pure hkept)

/-- A deferred task is awaited: its failure is the run's. -/
theorem await_proceeds {d : Deferred} (hd : d.Due setup.host s)
    (hkept : s.current.Kept setup.host plays s) :
    Proceeds setup.host plays (await setup d) s fun _ v => v.current.Kept setup.host plays v := by
  obtain ⟨⟨f, command, scope, outcome, hf, hp, ho⟩, hdispatched⟩ := hd
  have hforce : (Future.force setup.host d.future).run s.world =
      (outcome.mapError (.futureFailed f.name), s.world) :=
    Future.run_force_of_answer? (World.answer?_of_settled hf hp)
  intro hs
  -- The future was settled at its dispatch, so awaiting it only looks at the outcome.
  apply Ends.inWorldThen
  rw [hforce]
  cases outcome with
  | error message =>
    have hgrows := s.grows_push setup.host (.finishTask d.task
      (some (TaskResult.ofFailure (Error.futureFailed f.name message).message)))
    refine ⟨⟨_, hgrows⟩, ⟨?_, by rintro _ ⟨⟩, ?_⟩, by rintro _ ⟨⟩⟩
    · exact hgrows.events ▸ hs.prompt.append trivial
    · rintro _ ⟨⟩
      exact ⟨Error.inTask_inTask _ _ d.name, _, d.task, _, [], hgrows.events, rfl,
        .awaited hs.closed hdispatched, hs.unclosed, hs.unfailing⟩
  | ok result =>
    have hgrows := s.grows_push setup.host (.finishTask d.task (some result))
    have hcalm : Calm setup.host (s.push (.finishTask d.task (some result))).events.toList := by
      rw [hgrows.events]
      exact hs.append (calm_finish fun hhost => ho.unfailed hhost result rfl)
    have hkept' := hkept.grows hgrows
    by_cases hchanged : result.changed
    · simp only [Except.mapError, if_pos hchanged]
      exact ⟨⟨_, hgrows.events, hgrows.later⟩, .ok hcalm.prompt hcalm,
        fun _ _ => ⟨hkept'.play, hkept'.due⟩⟩
    · simp only [Except.mapError, if_neg hchanged]
      exact ⟨⟨_, hgrows⟩, .ok hcalm.prompt hcalm, fun _ _ => hkept'⟩

theorem forM_await_proceeds {ds : List Deferred} (hds : ∀ d ∈ ds, d.Due setup.host s)
    (hkept : s.current.Kept setup.host plays s) :
    Proceeds setup.host plays (ds.forM (await setup)) s fun _ v =>
      v.current.Kept setup.host plays v := by
  induction ds generalizing s with
  | nil => exact .pure hkept
  | cons d ds ih =>
    obtain ⟨hd, hds⟩ := List.forall_mem_cons.mp hds
    apply Proceeds.bind (await_proceeds hd hkept)
    intro _ v L hL hkept'
    exact ih (fun d' hd' => (hds d' hd').grows hL) hkept'

theorem drain_proceeds (hkept : s.current.Kept setup.host plays s) :
    Proceeds setup.host plays (drain setup) s fun _ v => v.current.Kept setup.host plays v :=
  .shift { s with current := { s.current with deferred := [] } }
    ⟨(List.append_nil _).symm, .refl _⟩ rfl (forM_await_proceeds hkept.due ⟨hkept.play, by simp⟩)

theorem drainPlay_proceeds {st : PlayState} (hst : st.Kept setup.host plays s) :
    Proceeds setup.host plays (drainPlay setup st) s fun st' v =>
      st'.Kept setup.host plays v := by
  refine .shift { s with current := st } ⟨(List.append_nil _).symm, .refl _⟩ rfl
    (y := do drain setup; return (← get).current) ?_
  apply (drain_proceeds ⟨hst.play, hst.due⟩).bind
  intro _ v L _ hkept
  exact .getThen (.pure hkept)

theorem runHandler_proceeds (started : Bool) (h : Task)
    (hkept : s.current.Kept setup.host plays s) :
    Proceeds setup.host plays (runHandler setup started h) s fun _ v =>
      v.current.Kept setup.host plays v := by
  have hrun {s : RunState σ} (hkept : s.current.Kept setup.host plays s) :
      Proceeds setup.host plays (runPlayTask setup h >>= fun _ => pure true) s fun _ v =>
        v.current.Kept setup.host plays v :=
    (Proceeds.of_tells (tells_runPlayTask s.current.play h) hkept).bind
      fun _ _ _ _ hkept' => .pure hkept'
  apply Proceeds.getThen
  by_cases hnotified : s.current.notified.contains h.name
  · rw [if_pos hnotified]
    cases started with
    | true => exact hrun hkept
    | false =>
      apply (Proceeds.emit (by simp [openings])).bind
      rintro _ _ L hL rfl
      exact hrun (hkept.grows hL)
  · rw [if_neg hnotified]
    exact .pure hkept

theorem handlers_proceed (started : Bool) (hs : List Task)
    (hkept : s.current.Kept setup.host plays s) :
    Proceeds setup.host plays (hs.foldlM (runHandler setup) started) s fun _ v =>
      v.current.Kept setup.host plays v := by
  induction hs generalizing s started with
  | nil => exact .pure hkept
  | cons h hs ih =>
    rw [List.foldlM_cons]
    apply (runHandler_proceeds started h hkept).bind
    intro started' v L _ hkept'
    exact ih started' hkept'

theorem runHandlers_proceeds (started : Bool) {st : PlayState}
    (hst : st.Kept setup.host plays s) :
    Proceeds setup.host plays (runHandlers setup started st) s fun _ _ => True := by
  refine .shift { s with current := st } ⟨(List.append_nil _).symm, .refl _⟩ rfl
    (y := do
      let started ← st.play.handlers.foldlM (runHandler setup) started
      drain setup
      return started) ?_
  apply (handlers_proceed started st.play.handlers ⟨hst.play, hst.due⟩).bind
  intro started' v L _ hkept
  exact (drain_proceeds hkept).bind fun _ _ _ _ _ => .pure trivial

theorem allHandlers_proceed (started : Bool) {sts : List PlayState}
    (hsts : ∀ st ∈ sts, st.Kept setup.host plays s) :
    Proceeds setup.host plays (sts.foldlM (runHandlers setup) started) s fun _ _ => True := by
  induction sts generalizing s started with
  | nil => exact .pure trivial
  | cons st sts ih =>
    obtain ⟨hst, hsts⟩ := List.forall_mem_cons.mp hsts
    rw [List.foldlM_cons]
    apply (runHandlers_proceeds started hst).bind
    intro started' v L hL _
    exact ih started' fun st' hst' => (hsts st' hst').grows hL

/-- The phases of a run up to its closing events. -/
def openPhases (setup : Setup σ) (plays : List Play) : Step σ Bool := do
  emit .startTasks
  let states ← plays.mapM (runPlay setup)
  emit .finishTasks
  let states ← states.mapM (drainPlay setup)
  states.foldlM (runHandlers setup) false

theorem runPhases_eq (setup : Setup σ) (plays : List Play) :
    runPhases setup plays = (do
      let started ← openPhases setup plays
      if started then emit .finishHandlers
      emit .finishAll) := by
  simp only [runPhases, openPhases, bind_assoc]

theorem openPhases_proceed (plays : List Play) (s : RunState σ) :
    Proceeds setup.host plays (openPhases setup plays) s fun _ _ => True := by
  apply (Proceeds.emit (by simp [openings])).bind
  rintro _ s₁ _ - -
  have hplays : Proceeds setup.host plays (plays.mapM (runPlay setup)) s₁ _ :=
    proceeds_mapM (P := fun _ p => p ∈ plays) (Q := fun v st => st.Kept setup.host plays v)
      (fun _ h => h) (fun hL h => h.grows hL) (fun p s hp => runPlay_proceeds hp s) fun _ hp => hp
  apply hplays.bind
  intro states s₂ _ _ hstates
  apply (Proceeds.emit (by simp [openings])).bind
  rintro _ _ _ hL rfl
  have hdrains : Proceeds setup.host plays (states.mapM (drainPlay setup)) _ _ :=
    proceeds_mapM (P := fun v st => st.Kept setup.host plays v)
      (Q := fun v st => st.Kept setup.host plays v) (fun hL h => h.grows hL)
      (fun hL h => h.grows hL) (fun st s hst => drainPlay_proceeds hst)
      fun st hst => (hstates st hst).grows hL
  apply hdrains.bind
  intro states' s₃ _ _ hstates'
  exact allHandlers_proceed false hstates'

/-- The phases of a run report deferred tasks promptly, and they end with the reports
of a failure if they fail. -/
theorem runPhases_unwinds (plays : List Play) {s : RunState σ}
    (hs : Calm setup.host s.events.toList) :
    (runPhases setup plays).Ends s fun o v => Prompt v.events.toList ∧
      ∀ e, o = .error (.failed e) →
        Unwinds setup.host (FailsAt plays) e v.events.toList := by
  rw [runPhases_eq]
  apply (openPhases_proceed plays s hs).bind
  · -- The events that close the phases cannot fail any more.
    rintro started v ⟨-, hcourse, -⟩
    have hprompt {L : List Event} (hL : Prompt L) : Prompt (v.events.toList ++ L) :=
      hcourse.prompt.append hL
    cases started with
    | false =>
      have hend := (v.grows_push setup.host .finishAll).events
      exact ⟨hend ▸ hprompt trivial, by rintro _ ⟨⟩⟩
    | true =>
      have hend := ((v.grows_push setup.host .finishHandlers).trans
        (RunState.grows_push setup.host .finishAll _)).events
      exact ⟨hend ▸ hprompt trivial, by rintro _ ⟨⟩⟩
  · rintro e v ⟨-, hcourse, -⟩
    exact ⟨hcourse.prompt, fun cause he => hcourse.ill cause (congrArg _ (Except.error.inj he))⟩

/-- A run that fails stops at once: the first failure is reported, then those of the
module calls around the failed task, innermost first, and then the end of the run with
the error that the run returns. Before the failure no phase has been closed. -/
theorem failure_unwinds (setup : Setup σ) (book : Playbook) (world : World σ) {e : Error}
    (herror : (run setup book world).error = some e) :
    ∃ before t result calls,
      (run setup book world).events =
        before ++ unwinding t result calls e ++ [.ended (some e)] ∧
      result.failed = true ∧ FailsAt book.plays before t calls ∧
      (∀ event ∈ before, ¬ event.Closes) ∧ (setup.host.Honest → Unfailing before) := by
  rcases hrun : (runPhases setup book.plays).run.run (RunState.initial world) with ⟨o, v⟩
  have hinitial : Calm setup.host (RunState.initial world).events.toList := (Smooth.nil _).toCalm
  obtain ⟨-, hunwinds⟩ := (runPhases_unwinds book.plays hinitial).of_run hrun
  unfold RunState.initial at hrun
  rcases o with (cause | _) | ⟨⟩
  · simp only [run, hrun, Option.some.injEq] at herror ⊢
    subst herror
    obtain ⟨-, before, t, result, calls, hevents, hfailed, hat, hunclosed, hfirst⟩ :=
      hunwinds cause rfl
    exact ⟨before, t, result, calls, by rw [hevents], hfailed, hat, hunclosed, hfirst⟩
  · simp only [run, hrun, reduceCtorEq] at herror
  · simp only [run, hrun, reduceCtorEq] at herror

/-- Surroundings in which the only external command, `touch`, answers as given. -/
def touchingAs (answer : σ → Except CommandError TaskResult × σ) : Setup σ where
  host :=
    { baseDir := ""
      pathExists := fun _ _ => false
      runProcess := fun _ _ s => (.notStarted "", s)
      runExternal := fun _ _ _ s => answer s }
  registry := Registry.withExternal [] "touch"
  root := []

/-- Surroundings in which `touch` always fails. -/
def refusing : Setup Unit := touchingAs fun s => (.error (.failed "refused" none), s)

/-- A module call inside a module call, with a task after each. -/
def callsWithin : Playbook where
  plays := [{
    name := "p"
    tasks := [{ name := "a", command := "outer" }, { name := "b", command := "touch" }]
    modules := [("outer", { name := "outer", tasks := [{ name := "c", command := "inner" }] }),
      ("inner", { name := "inner", tasks := [{ name := "d", command := "touch" },
        { name := "e", command := "touch" }] })] }]

theorem failure_unwinds_callsWithin :
    (run refusing callsWithin { host := () }).error =
        some (.task "p" "d" (.command (.failed "refused" none))) ∧
      ∃ before t result calls,
        (run refusing callsWithin { host := () }).events =
          before ++ unwinding t result calls (.task "p" "d" (.command (.failed "refused" none))) ++
            [.ended (some (.task "p" "d" (.command (.failed "refused" none))))] ∧
        result.failed = true ∧ FailsAt callsWithin.plays before t calls ∧
        (∀ event ∈ before, ¬ event.Closes) ∧ (refusing.host.Honest → Unfailing before) := by
  have herror : (run refusing callsWithin { host := () }).error =
      some (.task "p" "d" (.command (.failed "refused" none))) := by
    with_unfolding_all rfl
  exact ⟨herror, failure_unwinds refusing callsWithin { host := () } herror⟩

example : (run refusing callsWithin { host := () }).events.filterMap (fun
    | .startTask t _ _ _ => some t.name
    | .finishTask t _ => some t.name
    | _ => none) = ["a", "c", "d", "d", "c", "a"] := by decide +kernel

end Runner

end PlaybookRunner
