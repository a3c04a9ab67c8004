import PlaybookRunner.Proofs.Handlers
import PlaybookRunner.Proofs.Reruns
import PlaybookRunner.Proofs.Skipping

/-!
# The announcement of the handlers

A run announces its handlers when it comes to the first that was notified, before it
looks at the condition and at the items of that handler. So the announcement says
that a handler was notified. A handler starts after it unless all notified handlers
are skipped, and then the announcement is followed by no start of a handler.
-/

namespace PlaybookRunner

variable {σ : Type} {setup : Setup σ}

open Transcript

namespace PlayState

/-- Those of some handlers that the play has notified, each with its scope. -/
def notifiedOf (setup : Setup σ) (st : PlayState) (handlers : List Task) : List (Scope × Task) :=
  (handlers.filter fun h => st.notified.contains h.name).map (Runner.playScope setup st, ·)

/-- If the play has notified anything then tasks can run. -/
def RunsTasks (setup : Setup σ) (st : PlayState) : Prop :=
  st.notified ≠ [] → 0 < setup.callDepth

/-- The notified handlers of plays in the order in which they are considered. -/
def notifiedHandlers (setup : Setup σ) (sts : List PlayState) : List (Scope × Task) :=
  sts.flatMap fun st => st.notifiedOf setup st.play.handlers

variable {st : PlayState} {h : Task}

theorem notifiedOf_cons_of_mem (hname : h.name ∈ st.notified) (hs : List Task) :
    st.notifiedOf setup (h :: hs) = (Runner.playScope setup st, h) :: st.notifiedOf setup hs := by
  unfold notifiedOf
  rw [List.filter_cons_of_pos (by simpa using hname), List.map_cons]

theorem notifiedOf_cons_of_notMem (hname : h.name ∉ st.notified) (hs : List Task) :
    st.notifiedOf setup (h :: hs) = st.notifiedOf setup hs := by
  unfold notifiedOf
  rw [List.filter_cons_of_neg (by simpa using hname)]

theorem notifiedHandlers_cons (st : PlayState) (sts : List PlayState) :
    notifiedHandlers setup (st :: sts) =
      st.notifiedOf setup st.play.handlers ++ notifiedHandlers setup sts := List.flatMap_cons

end PlayState

/-- A handler of the plays starts after the handlers were announced. -/
def HandlerStarts (plays : List Play) (L : List Event) : Prop :=
  ∃ p ∈ plays, ∃ h ∈ p.handlers, ∃ name args params,
    [.startHandlers, .startTask h name args params].Sublist L

namespace Runner

open Step RunState PlayState

variable {s : RunState σ}

/-- One of the handlers is the first to start after the announcement. -/
def StartsOne (handlers : List Task) (started : Bool) (s v : RunState σ) : Prop :=
  ∃ handler ∈ handlers, ∃ L, Opens handler L ∧
    v.events.toList = s.events.toList ++ (announced started (.ok true) ++ L)

section

variable {handlers handlers' : List Task} {started : Bool} {u v : RunState σ}

theorem StartsOne.mono (h : StartsOne handlers started s v) (hsub : handlers ⊆ handlers') :
    StartsOne handlers' started s v := by
  obtain ⟨handler, hmem, hopens⟩ := h
  exact ⟨handler, hsub hmem, hopens⟩

theorem StartsOne.then (h : StartsOne handlers started s u) {D : List Event}
    (hv : v.events.toList = u.events.toList ++ D) : StartsOne handlers started s v := by
  obtain ⟨handler, hmem, L, hopens, hevents⟩ := h
  refine ⟨handler, hmem, L ++ D, hopens.append D, ?_⟩
  rw [hv, hevents]
  simp only [List.append_assoc]

/-- Only the announcement comes before the part in which one of the handlers starts. -/
theorem StartsOne.after {b : Bool} (hb : b = false → started = false)
    (hu : u.events.toList = s.events.toList ++ announced started (.ok b))
    (h : StartsOne handlers b u v) : StartsOne handlers started s v := by
  obtain ⟨handler, hmem, L, hopens, hevents⟩ := h
  refine ⟨handler, hmem, L, hopens, ?_⟩
  rw [hevents, hu]
  cases b with
  | false =>
    rw [hb rfl]
    simp [announced]
  | true => simp [announced]

end

theorem toList_announceIf (ran started : Bool) (s : RunState σ) :
    (s.announceIf ran started).events.toList =
      s.events.toList ++ announced started (.ok (started || ran)) := by
  cases ran <;> cases started <;> simp [announceIf, announced, RunState.push]

theorem announceIf_started (s : RunState σ) (ran : Bool) : s.announceIf ran true = s := by
  cases ran <;> rfl

theorem run_runHandler_of_skipped {handler : Task} (started : Bool) {w : World σ}
    (hdepth : 0 < setup.callDepth) (hname : handler.name ∈ s.current.notified)
    (hskip : (handler.skipped setup (playScope setup s.current)).run s.world = (true, w)) :
    (runHandler setup started handler).run.run s =
      (.ok true, { s.announceIf true started with world := w }) := by
  rw [← current_announceIf true started s, ← world_announceIf true started s] at hskip
  exact run_runHandler_of_mem hname (run_runPlayTask_of_skipped hdepth hskip)

theorem runHandler_opens {handler : Task} (started : Bool) (hdepth : 0 < setup.callDepth)
    (hname : handler.name ∈ s.current.notified)
    (hskip : ((handler.skipped setup (playScope setup s.current)).run s.world).1 = false) :
    (runHandler setup started handler).Ends s fun _ v => StartsOne [handler] started s v := by
  rw [← current_announceIf true started s, ← world_announceIf true started s] at hskip
  rcases hrun : (runPlayTask setup handler).run.run (s.announceIf true started) with ⟨o, v⟩
  obtain ⟨L, hL, hopens⟩ := (runPlayTask_opens hdepth hskip).of_run hrun
  unfold Ends
  rw [run_runHandler_of_mem hname hrun]
  refine ⟨handler, List.mem_singleton_self handler, L, hopens, ?_⟩
  rw [hL.events, toList_announceIf, Bool.or_true, List.append_assoc]

/-- Skipped handlers are announced, and nothing more is reported of them. -/
theorem run_handlers_of_skipped (hs : List Task) (started : Bool) {w : World σ}
    (hdepth : s.current.RunsTasks setup)
    (h : (Task.allSkipped setup (s.current.notifiedOf setup hs)).run s.world = (true, w)) :
    (hs.foldlM (runHandler setup) started).run.run s =
      (.ok (started || !(s.current.notifiedOf setup hs).isEmpty),
        { s.announceIf (!(s.current.notifiedOf setup hs).isEmpty) started with world := w }) := by
  induction hs generalizing started s with
  | nil =>
    cases h
    cases started <;> rfl
  | cons handler hs ih =>
    rw [List.foldlM_cons]
    by_cases hname : handler.name ∈ s.current.notified
    · rw [notifiedOf_cons_of_mem hname, Task.run_allSkipped_cons] at h
      rcases hskip : (handler.skipped setup (playScope setup s.current)).run s.world with ⟨b, u⟩
      rw [hskip] at h
      cases b with
      | false => cases h
      | true =>
        have hrun := run_runHandler_of_skipped started (hdepth (List.ne_nil_of_mem hname)) hname hskip
        rw [run_bind_of_ok hrun]
        have hrest := ih (s := { s.announceIf true started with world := u }) true
        rw [current_announceIf] at hrest
        rw [hrest hdepth h, notifiedOf_cons_of_mem hname, announceIf_started]
        cases started <;> rfl
    · rw [run_bind_of_ok (run_runHandler_of_notMem hname)]
      rw [notifiedOf_cons_of_notMem hname] at h ⊢
      exact ih started hdepth h

/-- A handler starts if not all that were notified are skipped. -/
theorem handlers_start (hs : List Task) (started : Bool)
    (hdepth : s.current.RunsTasks setup)
    (h : ((Task.allSkipped setup (s.current.notifiedOf setup hs)).run s.world).1 = false) :
    (hs.foldlM (runHandler setup) started).Ends s fun _ v => StartsOne hs started s v := by
  induction hs generalizing started s with
  | nil => cases h
  | cons handler hs ih =>
    rw [List.foldlM_cons]
    by_cases hname : handler.name ∈ s.current.notified
    · rw [notifiedOf_cons_of_mem hname, Task.run_allSkipped_cons] at h
      have hdepth' := hdepth (List.ne_nil_of_mem hname)
      rcases hskip : (handler.skipped setup (playScope setup s.current)).run s.world with ⟨_ | _, u⟩
      · have hfirst := runHandler_opens started hdepth' hname (congrArg Prod.fst hskip)
        have hhead : [handler] ⊆ handler :: hs := by simp
        apply hfirst.bind
        · intro b v hv
          have hrest : Adds setup.host v.current.play (hs.foldlM (runHandler setup) b) _ :=
            adds_handlers v.current.play b hs
          obtain ⟨L, hL, -⟩ := hrest v rfl
          exact (hv.then hL.events).mono hhead
        · exact fun e v hv => hv.mono hhead
      · rw [hskip] at h
        have hrun := run_runHandler_of_skipped started hdepth' hname hskip
        have hevents := toList_announceIf true started s
        rw [Bool.or_true] at hevents
        have hrest := ih (s := { s.announceIf true started with world := u }) true
        rw [current_announceIf] at hrest
        have hstarts : StartsOne hs started s _ := (hrest hdepth h).after (by simp) hevents
        unfold Ends
        rw [run_bind_of_ok hrun]
        exact hstarts.mono (List.subset_cons_self handler hs)
    · unfold Ends
      rw [run_bind_of_ok (run_runHandler_of_notMem hname)]
      rw [notifiedOf_cons_of_notMem hname] at h
      have hstarts : StartsOne hs started s _ := ih started hdepth h
      exact hstarts.mono (List.subset_cons_self handler hs)

/-- The skipped handlers of a play leave nothing to await. -/
theorem run_runHandlers_of_skipped {st : PlayState} (started : Bool) {w : World σ}
    (hdeferred : st.deferred = []) (hdepth : st.RunsTasks setup)
    (h : (Task.allSkipped setup (st.notifiedOf setup st.play.handlers)).run s.world = (true, w)) :
    let b := started || !(st.notifiedOf setup st.play.handlers).isEmpty
    ∃ v, (runHandlers setup started st).run.run s = (.ok b, v) ∧ v.world = w ∧
      v.events.toList = s.events.toList ++ announced started (.ok b) := by
  have hhandlers := run_handlers_of_skipped (s := s.resumed st) st.play.handlers started hdepth h
  refine ⟨_, run_runHandlers_of_ok hhandlers (drain_of_nil ?_), rfl,
    toList_announceIf _ started (s.resumed st)⟩
  exact (congrArg PlayState.deferred (current_announceIf _ started (s.resumed st))).trans hdeferred

theorem runHandlers_starts {log : PlayLog} {st : PlayState} (started : Bool)
    (hdrained : log.Drained setup.host st) (hdepth : st.RunsTasks setup)
    (h : ((Task.allSkipped setup (st.notifiedOf setup st.play.handlers)).run s.world).1 = false) :
    (runHandlers setup started st).Ends s fun _ v => StartsOne st.play.handlers started s v := by
  rcases hrun : (st.play.handlers.foldlM (runHandler setup) started).run.run (s.resumed st)
    with ⟨o, u⟩
  have hstarts : StartsOne st.play.handlers started s u :=
    (handlers_start (s := s.resumed st) st.play.handlers started hdepth h).of_run hrun
  unfold Ends
  cases o with
  | error e =>
    rw [run_runHandlers_of_error hrun]
    exact hstarts
  | ok b =>
    -- Awaiting what the handlers deferred only adds reports.
    obtain ⟨_, hL, -⟩ := (adds_handlers st.play started st.play.handlers (s.resumed st) rfl).of_run
      hrun
    obtain ⟨ds, hds, -, hsettled⟩ := hL.current.deferred
    have hdeferred : u.current.deferred = ds := by
      rw [hds]
      exact congrArg (· ++ ds) hdrained.deferred
    rcases hdrain : (drain setup).run.run u with ⟨o', v⟩
    obtain ⟨D, _, -, hawaits⟩ := (drain_ends u (hdeferred ▸ hsettled)).of_run hdrain
    rw [run_runHandlers_of_ok hrun hdrain]
    exact hstarts.then hawaits.grows.events

theorem announced_or (started ran more : Bool) :
    announced started (.ok (started || ran)) ++
        announced (started || ran) (.ok (started || ran || more)) =
      announced started (.ok (started || ran || more)) := by
  cases started <;> cases ran <;> cases more <;> rfl

variable {sts : List PlayState}

/-- If all notified handlers are skipped, then nothing but their announcement is
reported. -/
theorem run_plays_of_skipped (started : Bool) {w : World σ}
    (hdeferred : ∀ st ∈ sts, st.deferred = [])
    (hdepth : ∀ st ∈ sts, st.RunsTasks setup)
    (h : (Task.allSkipped setup (notifiedHandlers setup sts)).run s.world = (true, w)) :
    ((sts.foldlM (runHandlers setup) started).run.run s).2.events.toList = s.events.toList ++
      announced started (.ok (started || !(notifiedHandlers setup sts).isEmpty)) := by
  induction sts generalizing started s with
  | nil => cases started <;> exact (List.append_nil _).symm
  | cons st sts ih =>
    obtain ⟨hdeferred, hdeferred'⟩ := List.forall_mem_cons.mp hdeferred
    obtain ⟨hdepth, hdepth'⟩ := List.forall_mem_cons.mp hdepth
    rw [notifiedHandlers_cons, Task.run_allSkipped_append] at h
    rcases hfirst : (Task.allSkipped setup (st.notifiedOf setup st.play.handlers)).run s.world
      with ⟨_ | _, u⟩
    · rw [hfirst] at h
      cases h
    · rw [hfirst] at h
      obtain ⟨v, hrun, hworld, hevents⟩ :=
        run_runHandlers_of_skipped started hdeferred hdepth hfirst
      have hrest := ih (s := v) (started || !(st.notifiedOf setup st.play.handlers).isEmpty)
        hdeferred' hdepth' (hworld ▸ h)
      have hempty : (notifiedHandlers setup (st :: sts)).isEmpty =
          ((st.notifiedOf setup st.play.handlers).isEmpty &&
            (notifiedHandlers setup sts).isEmpty) := by
        rw [notifiedHandlers_cons]
        cases st.notifiedOf setup st.play.handlers <;> rfl
      rw [List.foldlM_cons, run_bind_of_ok hrun, hrest, hevents, List.append_assoc, announced_or,
        hempty, Bool.not_and, Bool.or_assoc]

theorem plays_start {logs : List PlayLog} (started : Bool)
    (hdrained : List.Forall₂ (fun log st => log.Sound ∧ log.Drained setup.host st) logs sts)
    (hdepth : ∀ st ∈ sts, st.RunsTasks setup)
    (h : ((Task.allSkipped setup (notifiedHandlers setup sts)).run s.world).1 = false) :
    (sts.foldlM (runHandlers setup) started).Ends s fun _ v =>
      StartsOne (sts.flatMap fun st => st.play.handlers) started s v := by
  induction hdrained generalizing started s with
  | nil => cases h
  | @cons log st logs sts hlog hlogs ih =>
    obtain ⟨hdepth, hdepth'⟩ := List.forall_mem_cons.mp hdepth
    rw [notifiedHandlers_cons, Task.run_allSkipped_append] at h
    rw [List.foldlM_cons, List.flatMap_cons]
    rcases hfirst : (Task.allSkipped setup (st.notifiedOf setup st.play.handlers)).run s.world
      with ⟨_ | _, u⟩
    · have hstarts := runHandlers_starts started hlog.2 hdepth (congrArg Prod.fst hfirst)
      have hhead := List.subset_append_left st.play.handlers
        (sts.flatMap fun st => st.play.handlers)
      apply hstarts.bind
      · intro b v hv
        -- The handlers of the later plays only add reports.
        obtain ⟨_, L, -, hgrows, -⟩ := handlers_end (X := True) b v hlogs fun _ _ _ => trivial
        exact (hv.then hgrows.events).mono hhead
      · exact fun e v hv => hv.mono hhead
    · rw [hfirst] at h
      obtain ⟨v, hrun, hworld, hevents⟩ :=
        run_runHandlers_of_skipped started hlog.2.deferred hdepth hfirst
      have hrest := ih (s := v) (started || !(st.notifiedOf setup st.play.handlers).isEmpty)
        hdepth' (hworld ▸ h)
      unfold Ends at hrest ⊢
      rw [run_bind_of_ok hrun]
      exact (hrest.after (fun h => (Bool.or_eq_false_iff.mp h).1) hevents).mono
        (List.subset_append_right _ _)

/-- The phases of a run before its handlers. -/
def beforeHandlers (setup : Setup σ) (plays : List Play) : Step σ (List PlayState) := do
  emit .startTasks
  let states ← plays.mapM (runPlay setup)
  emit .finishTasks
  states.mapM (drainPlay setup)

theorem runPhases_beforeHandlers (setup : Setup σ) (plays : List Play) :
    runPhases setup plays = (do
      let states ← beforeHandlers setup plays
      let started ← states.foldlM (runHandlers setup) false
      if started then emit .finishHandlers
      emit .finishAll) := by
  simp only [runPhases, beforeHandlers, bind_assoc]

theorem forall_of_inTurn {α β : Type} {f : α → Step σ β} {P : α → Prop} {Q : β → Prop}
    {as : List α} {bs : List β} {Ls : List (List Event)} {v : RunState σ}
    (h : InTurn f s as bs Ls v) (has : ∀ a ∈ as, P a)
    (hf : ∀ {a b s L v}, P a → (f a).Gives s b L v → Q b) : ∀ b ∈ bs, Q b := by
  induction h with
  | nil => simp
  | cons hfirst _ ih =>
    obtain ⟨ha, has⟩ := List.forall_mem_cons.mp has
    exact List.forall_mem_cons.mpr ⟨hf ha hfirst, ih has⟩

/-- Where no task can run a play ends well only if it has no tasks. -/
theorem idle_of_runPlay (hdepth : setup.callDepth = 0) {p : Play} {st : PlayState}
    {L : List Event} {v : RunState σ} (h : (runPlay setup p).Gives s st L v) :
    st.notified = [] ∧ st.deferred = [] := by
  cases htasks : p.tasks with
  | nil =>
    have hrun : (anyChanged (runPlayTask setup) p.tasks).run.run (s.entered p) =
        (.ok false, s.entered p) := by
      rw [htasks]
      rfl
    have hplay := (run_runPlay hrun).symm.trans h.1
    cases hplay
    exact ⟨rfl, rfl⟩
  | cons t ts =>
    have htask : (runPlayTask setup t).run.run (s.entered p) = (.error .tooDeep, s.entered p) := by
      change (runTask setup setup.callDepth t _).run.run _ = _
      rw [hdepth]
      rfl
    have hrun : (anyChanged (runPlayTask setup) p.tasks).run.run (s.entered p) =
        (.error .tooDeep, s.entered p) := by
      rw [htasks]
      exact run_bind_of_error htask
    have hplay := (run_runPlay hrun).symm.trans h.1
    cases hplay

theorem notified_of_drainPlay {st st' : PlayState} {L : List Event} {v : RunState σ}
    (hnotified : st.notified = []) (hdeferred : st.deferred = [])
    (h : (drainPlay setup st).Gives s st' L v) : st'.notified = [] := by
  have hdrain := (run_drainPlay (drain_of_nil (s := s.resumed st) hdeferred)).symm.trans h.1
  cases hdrain
  exact hnotified

/-- What the phases before the handlers leave. -/
theorem beforeHandlers_ok {plays : List Play} {v : RunState σ}
    (hreach : (beforeHandlers setup plays).run.run s = (.ok sts, v)) :
    (∃ logs : List PlayLog, logs.map PlayLog.play = plays ∧
      List.Forall₂ (fun log st => log.Sound ∧ log.Drained setup.host st) logs sts ∧
      v.events.toList = s.events.toList ++ PlayLog.mainPart logs) ∧
    ∀ st ∈ sts, st.RunsTasks setup := by
  obtain ⟨_, _, hstart, hrun⟩ := run_bind_ok hreach
  cases hstart
  obtain ⟨played, u, hplayed, hrun⟩ := run_bind_ok hrun
  obtain ⟨_, _, hfinish, hdrained⟩ := run_bind_ok hrun
  cases hfinish
  obtain ⟨logs, T, hlogs, hT, htasks, hplayed⟩ :=
    (tasks_end (X := True) plays _ fun _ _ _ => trivial).of_run hplayed
  obtain ⟨hplayed, hturns⟩ := hplayed played rfl
  obtain ⟨logs', D, hlogs', hD, hreaches, hdrained⟩ :=
    (drains_end (X := True) (s := u.push .finishTasks) hplayed).of_run hdrained
  obtain ⟨hdrained, hturns'⟩ := hdrained sts rfl
  obtain ⟨hruns, hflat⟩ := PlayLog.runs_of_drained hlogs hlogs'
  refine ⟨⟨logs', PlayLog.play_of_runs hruns, hdrained, ?_⟩, ?_⟩
  · have hplays : u.events.toList = (s.push .startTasks).events.toList ++ T := hT.events
    have hdrains : v.events.toList = (u.push .finishTasks).events.toList ++ D := hD.events
    obtain rfl := htasks.all played rfl
    obtain rfl := hreaches.all sts rfl
    rw [hdrains, RunState.push, Array.toList_push, hplays, RunState.push, Array.toList_push,
      PlayLog.mainPart, hflat]
    simp
  · intro st hst hnotified
    by_contra hdepth
    have hdepth : setup.callDepth = 0 := by omega
    have hidle : ∀ st ∈ played, st.notified = [] ∧ st.deferred = [] :=
      forall_of_inTurn hturns (fun _ _ => trivial) fun (_ : True) h => idle_of_runPlay hdepth h
    have hquiet : ∀ st ∈ sts, st.notified = [] :=
      forall_of_inTurn hturns' hidle fun hst h => notified_of_drainPlay hst.1 hst.2 h
    exact hnotified (hquiet st hst)

/-- After the handlers a run reports only what closes it. -/
theorem events_of_reach {book : Playbook} {world : World σ}
    (hreach : (beforeHandlers setup book.plays).run.run (RunState.initial world) = (.ok sts, s)) :
    ∃ T, (∀ e ∈ T, e.Closes) ∧ (run setup book world).events =
      ((sts.foldlM (runHandlers setup) false).run.run s).2.events.toList ++ T := by
  rw [run_eq, runPhases_beforeHandlers, run_bind_of_ok hreach]
  rcases hrun : (sts.foldlM (runHandlers setup) false).run.run s with ⟨(e | _) | started, v⟩
  · rw [run_bind_of_error hrun]
    exact ⟨[.ended (some e)], by simp [Event.Closes], rfl⟩
  · rw [run_bind_of_error hrun]
    exact ⟨[], by simp, (List.append_nil _).symm⟩
  · rw [run_bind_of_ok hrun]
    cases started with
    | false =>
      refine ⟨[.finishAll, .ended none], by simp [Event.Closes], ?_⟩
      change (concluded (.ok (), v.push .finishAll)).events = _
      simp [concluded, RunState.push]
    | true =>
      refine ⟨[.finishHandlers, .finishAll, .ended none], by simp [Event.Closes], ?_⟩
      change (concluded (.ok (), (v.push .finishHandlers).push .finishAll)).events = _
      simp [concluded, RunState.push]

section

variable {book : Playbook} {world : World σ}

/-- If all notified handlers are skipped then at most their announcement is reported
after the phases before the handlers. -/
theorem events_of_skipped {w : World σ}
    (hreach : (beforeHandlers setup book.plays).run.run (RunState.initial world) = (.ok sts, s))
    (hskip : (Task.allSkipped setup (notifiedHandlers setup sts)).run s.world = (true, w)) :
    ∃ T, (∀ e ∈ T, e.Closes) ∧ (run setup book world).events = s.events.toList ++
      ((if notifiedHandlers setup sts = [] then [] else [.startHandlers]) ++ T) := by
  obtain ⟨⟨logs, -, hdrained, -⟩, hdepth⟩ := beforeHandlers_ok hreach
  obtain ⟨T, hT, hevents⟩ := events_of_reach hreach
  have hdeferred : ∀ st ∈ sts, st.deferred = [] :=
    forall_mem_right (hdrained.imp fun _ _ h => h.2.deferred)
  rw [run_plays_of_skipped false hdeferred hdepth hskip, List.append_assoc] at hevents
  refine ⟨T, hT, hevents.trans ?_⟩
  cases notifiedHandlers setup sts <;> rfl

theorem prefix_of_reach
    (hreach : (beforeHandlers setup book.plays).run.run (RunState.initial world) = (.ok sts, s)) :
    s.events.toList <+: (run setup book world).events := by
  obtain ⟨⟨logs, -, hdrained, -⟩, -⟩ := beforeHandlers_ok hreach
  obtain ⟨T, -, hevents⟩ := events_of_reach hreach
  obtain ⟨_, L, -, hgrows, -⟩ := handlers_end (X := True) false s hdrained fun _ _ _ => trivial
  rw [hevents, hgrows.events, List.append_assoc]
  exact List.prefix_append _ _

/-- If not all notified handlers are skipped then one starts after the announcement. -/
theorem handlerStarts_of_reach
    (hreach : (beforeHandlers setup book.plays).run.run (RunState.initial world) = (.ok sts, s))
    (hskip : ((Task.allSkipped setup (notifiedHandlers setup sts)).run s.world).1 = false) :
    HandlerStarts book.plays (run setup book world).events := by
  obtain ⟨⟨logs, hplays, hdrained, -⟩, hdepth⟩ := beforeHandlers_ok hreach
  obtain ⟨T, -, hevents⟩ := events_of_reach hreach
  obtain ⟨handler, hmem, L, ⟨name, args, params, rest, rfl⟩, hstarts⟩ :=
    plays_start false hdrained hdepth hskip
  obtain ⟨st, hst, hhandler⟩ := List.mem_flatMap.mp hmem
  have hplay : sts.map PlayState.play = book.plays := by
    rw [map_eq_map (hdrained.imp fun _ _ h => h.2.play), hplays]
  refine ⟨st.play, hplay ▸ List.mem_map_of_mem hst, handler, hhandler, name, args, params, ?_⟩
  have hstart : [.startHandlers, .startTask handler name args params].Sublist
      (announced false (.ok true) ++ .startTask handler name args params :: rest) :=
    (List.prefix_append [_, _] rest).sublist
  rw [hevents, hstarts]
  exact (hstart.trans (List.sublist_append_right _ _)).trans (List.sublist_append_left _ _)

theorem startHandlers_notMem
    (hreach : (beforeHandlers setup book.plays).run.run (RunState.initial world) = (.ok sts, s)) :
    .startHandlers ∉ s.events.toList := by
  obtain ⟨⟨logs, -, hdrained, hevents⟩, -⟩ := beforeHandlers_ok hreach
  have hsound : ∀ log ∈ logs, log.Sound := ((List.forall₂_and_left logs sts).mp hdrained).1
  rw [hevents]
  exact PlayLog.notMem_mainPart hsound id (by simp) (by simp)

theorem startHandlers_mem_iff
    (hreach : (beforeHandlers setup book.plays).run.run (RunState.initial world) = (.ok sts, s)) :
    .startHandlers ∈ (run setup book world).events ↔ notifiedHandlers setup sts ≠ [] := by
  rcases hskip : (Task.allSkipped setup (notifiedHandlers setup sts)).run s.world with ⟨_ | _, w⟩
  · obtain ⟨p, -, h, -, name, args, params, hstarts⟩ :=
      handlerStarts_of_reach hreach (congrArg Prod.fst hskip)
    refine iff_of_true (hstarts.subset List.mem_cons_self) fun hnone => ?_
    rw [hnone] at hskip
    cases hskip
  · obtain ⟨T, hT, hevents⟩ := events_of_skipped hreach hskip
    have hclosing : .startHandlers ∉ T := hT .startHandlers
    rw [hevents]
    by_cases hnone : notifiedHandlers setup sts = [] <;>
      simp [hnone, hclosing, startHandlers_notMem hreach]

theorem handlerStarts_iff
    (hreach : (beforeHandlers setup book.plays).run.run (RunState.initial world) = (.ok sts, s)) :
    HandlerStarts book.plays (run setup book world).events ↔
      ((Task.allSkipped setup (notifiedHandlers setup sts)).run s.world).1 = false := by
  refine ⟨?_, handlerStarts_of_reach hreach⟩
  rintro ⟨p, -, h, -, name, args, params, hstarts⟩
  rcases hskip : (Task.allSkipped setup (notifiedHandlers setup sts)).run s.world with ⟨_ | _, w⟩
  · rfl
  -- Nothing that a skipped handler leaves behind can be a start.
  obtain ⟨T, hT, hevents⟩ := events_of_skipped hreach hskip
  have hclosing : .startTask h name args params ∉ T := hT (.startTask h name args params)
  rw [hevents, List.sublist_append_iff] at hstarts
  obtain ⟨A, B, hsplit, hA, hB⟩ := hstarts
  cases A with
  | nil =>
    obtain rfl : _ = B := hsplit
    have hmem := hB.subset (List.mem_cons_of_mem _ List.mem_cons_self)
    by_cases hnone : notifiedHandlers setup sts = [] <;> simp [hnone, hclosing] at hmem
  | cons e A =>
    obtain ⟨rfl, -⟩ := List.cons.inj hsplit
    exact absurd (hA.subset List.mem_cons_self) (startHandlers_notMem hreach)

end

/-- In a run that reaches the handlers these are announced exactly if one of them was
notified. One of them starts after that exactly if not all notified handlers are
skipped, so the announcement means a start unless some were notified and all of
those are skipped. In particular it does where none has a condition or an empty list
of items. -/
theorem handlers_announced_for_start (setup : Setup σ) (book : Playbook) (world : World σ)
    {sts : List PlayState} {s : RunState σ}
    (hreach : (beforeHandlers setup book.plays).run.run (RunState.initial world) = (.ok sts, s)) :
    let events := (run setup book world).events
    let called := notifiedHandlers setup sts
    let skipped := ((Task.allSkipped setup called).run s.world).1
    (s.events.toList <+: events ∧ .startHandlers ∉ s.events.toList) ∧
      (.startHandlers ∈ events ↔ called ≠ []) ∧
      (HandlerStarts book.plays events ↔ skipped = false) ∧
      ((.startHandlers ∈ events ↔ HandlerStarts book.plays events) ↔
        (called ≠ [] → skipped = false)) ∧
      ((∀ call ∈ called, call.2.condition? = none ∧ call.2.itemless = false) →
        (.startHandlers ∈ events ↔ HandlerStarts book.plays events)) := by
  intro events called skipped
  have hannounced : .startHandlers ∈ events ↔ called ≠ [] := startHandlers_mem_iff hreach
  have hstarts : HandlerStarts book.plays events ↔ skipped = false := handlerStarts_iff hreach
  have hcalled : skipped = false → called ≠ [] := by
    rintro hskipped hnone
    simp [skipped, hnone, Task.allSkipped] at hskipped
  refine ⟨⟨prefix_of_reach hreach, startHandlers_notMem hreach⟩, hannounced, hstarts, ?_,
    fun hcalls => ?_⟩
  · rw [hannounced, hstarts]
    exact ⟨Iff.mp, fun h => ⟨h, hcalled⟩⟩
  · rw [hannounced, hstarts]
    exact ⟨fun hne => Task.allSkipped_of_unconditional hne hcalls s.world, hcalled⟩

/-- A task that changes something notifies some handlers. -/
def notifying (handlers : List Task) : Playbook where
  plays := [{
    name := "p"
    tasks := [{ name := "t", command := "touch", notify := handlers.map Task.name }]
    handlers }]

/-- A handler that is skipped when it is notified. -/
def withheld : Task := { name := "a", command := "touch", condition := some "no" }

def partlyWithheld : Playbook := notifying [withheld, { name := "b", command := "touch" }]

theorem exists_of_isOk {α β : Type} {r : Except Stop α × β} (h : r.1.isOk = true) :
    ∃ a b, r = (.ok a, b) := by
  obtain ⟨e | a, b⟩ := r
  · cases h
  · exact ⟨a, b, rfl⟩

theorem handlers_announced_for_start_partlyWithheld :
    ∃ sts s, (beforeHandlers touching partlyWithheld.plays).run.run
        (RunState.initial { host := () }) = (.ok sts, s) ∧
      let events := (run touching partlyWithheld { host := () }).events
      let called := notifiedHandlers touching sts
      let skipped := ((Task.allSkipped touching called).run s.world).1
      (s.events.toList <+: events ∧ .startHandlers ∉ s.events.toList) ∧
        (.startHandlers ∈ events ↔ called ≠ []) ∧
        (HandlerStarts partlyWithheld.plays events ↔ skipped = false) ∧
        ((.startHandlers ∈ events ↔ HandlerStarts partlyWithheld.plays events) ↔
          (called ≠ [] → skipped = false)) ∧
        ((∀ call ∈ called, call.2.condition? = none ∧ call.2.itemless = false) →
          (.startHandlers ∈ events ↔ HandlerStarts partlyWithheld.plays events)) := by
  obtain ⟨sts, s, hreach⟩ := exists_of_isOk (r := (beforeHandlers touching
    partlyWithheld.plays).run.run (RunState.initial { host := () })) (by cbv)
  exact ⟨sts, s, hreach, handlers_announced_for_start touching partlyWithheld { host := () } hreach⟩

/-- A handler that is skipped when it is notified is announced and does not start. -/
theorem handlers_announced_without_start :
    (∃ sts s, (beforeHandlers touching (notifying [withheld]).plays).run.run
        (RunState.initial { host := () }) = (.ok sts, s)) ∧
      ¬ (.startHandlers ∈ (run touching (notifying [withheld]) { host := () }).events ↔
        HandlerStarts (notifying [withheld]).plays
          (run touching (notifying [withheld]) { host := () }).events) := by
  have hannounces : (run touching (notifying [withheld]) { host := () }).events.any
      Event.startsHandlers = true := by decide +kernel
  have hannounced : .startHandlers ∈
      (run touching (notifying [withheld]) { host := () }).events := by
    obtain ⟨e, he, hstarts⟩ := List.any_eq_true.mp hannounces
    cases e with
    | startHandlers => exact he
    | _ => cases hstarts
  have hnames : (started (run touching (notifying [withheld]) { host := () }).events).map
      Task.name = ["t"] := by decide +kernel
  refine ⟨exists_of_isOk (by decide +kernel), fun hiff => ?_⟩
  obtain ⟨p, hp, h, hh, name, args, params, hstarts⟩ := hiff.mp hannounced
  have hmem := hstarts.subset (List.mem_cons_of_mem _ List.mem_cons_self)
  have hstarted : h ∈ started _ := List.mem_filterMap.mpr ⟨_, hmem, rfl⟩
  have hname : h.name ∈ ["t"] := hnames ▸ List.mem_map_of_mem hstarted
  obtain rfl := List.mem_singleton.mp hp
  obtain rfl := List.mem_singleton.mp hh
  simp [withheld] at hname

end Runner

end PlaybookRunner
