import PlaybookRunner.Proofs.Phases

/-!
# The events of a run

A run that ends well reports a complete transcript of its plays. A run that an
error ends reports the beginning of one in which every task that started has
finished. Either is followed by the one event that ends the run. A run in which
module calls are nested too deep reports the beginning of a transcript with the
calls open and no end.
-/

namespace PlaybookRunner

variable {σ : Type} {setup : Setup σ} {X : Prop}

open Transcript

namespace PlayLog

/-- The log is one of the play, before its handlers. -/
def Runs (p : Play) (log : PlayLog) : Prop := log.play = p ∧ log.Sound ∧ log.Quiet

theorem play_of_runs {plays : List Play} {logs : List PlayLog}
    (h : List.Forall₂ Runs plays logs) : logs.map play = plays := by
  rw [map_eq_map (f := id) (h.imp fun _ _ h => h.1), List.map_id]

theorem complete_of_runs {plays : List Play} {logs : List PlayLog}
    (h : List.Forall₂ Runs plays logs) : Complete plays (mainPart logs ++ [.finishAll]) := by
  have hlogs : ∀ log ∈ logs, log.Sound ∧ log.Quiet := forall_mem_right (h.imp fun _ _ h => h.2)
  refine .plain (play_of_runs h) (fun log hlog => (hlogs log hlog).1) ?_
  refine List.flatMap_eq_nil_iff.mpr fun log hlog => ?_
  obtain ⟨hhandlers, hlate⟩ := (hlogs log hlog).2
  rw [hhandlers, hlate, List.nil_append]

/-- The awaiting of the deferred tasks leaves what the tasks reported. -/
theorem runs_of_drained {plays : List Play} {logs logs' : List PlayLog}
    (h : List.Forall₂ Runs plays logs)
    (h' : List.Forall₂ (fun log log' => log'.play = log.play ∧ log'.tasks = log.tasks ∧
      log'.Sound ∧ log'.Quiet) logs logs') :
    List.Forall₂ Runs plays logs' ∧ logs'.flatMap tasks = logs.flatMap tasks := by
  have htasks := map_eq_map (h'.imp fun _ _ h => h.2.1)
  refine ⟨?_, congrArg List.flatten htasks⟩
  induction h generalizing logs' with
  | nil =>
    obtain rfl := List.forall₂_nil_left_iff.mp h'
    exact .nil
  | cons hlog _ ih =>
    obtain ⟨log', logs', hlog', hrest, rfl⟩ := List.forall₂_cons_left_iff.mp h'
    exact .cons ⟨hlog'.1.trans hlog.1, hlog'.2.2⟩ (ih hrest (List.cons.inj htasks).2)

theorem Sound.ofTask {log : PlayLog} (h : log.Sound) :
    ∀ e ∈ log.tasks ++ log.drained ++ log.handlers ++ log.late, e.OfTask := by
  simp only [List.forall_mem_append]
  exact ⟨⟨⟨h.tasks.ofTask, h.drained.ofTask⟩, h.handlers.ofTask⟩, h.late.ofTask⟩

section

variable {logs : List PlayLog} {e : Event}

theorem notMem_mainPart (hsound : ∀ log ∈ logs, log.Sound) (he : ¬ e.OfTask)
    (hstart : e ≠ .startTasks) (hfinish : e ≠ .finishTasks) : e ∉ mainPart logs := by
  have hlog {log : PlayLog} (h : log ∈ logs) : e ∉ log.tasks ∧ e ∉ log.drained := by
    have hofTask := (hsound log h).ofTask e
    simp only [List.mem_append] at hofTask
    tauto
  simp only [mainPart, List.mem_append, List.mem_cons, List.mem_flatMap, hstart, hfinish, false_or,
    not_or, not_exists, not_and]
  exact ⟨fun log h => (hlog h).1, fun log h => (hlog h).2⟩

theorem notMem_handlerPart (hsound : ∀ log ∈ logs, log.Sound) (he : ¬ e.OfTask) :
    e ∉ handlerPart logs := by
  intro hmem
  obtain ⟨log, hlog, hmem⟩ := List.mem_flatMap.mp hmem
  have hofTask := (hsound log hlog).ofTask e
  simp only [List.mem_append] at hmem hofTask
  tauto

end

theorem Complete.ended_notMem {plays : List Play} {L : List Event} (h : Complete plays L)
    (error : Option Error) : .ended error ∉ L := by
  have hends : ¬ (Event.ended error).OfTask := id
  cases h with
  | plain _ hsound _ => simpa using notMem_mainPart hsound hends (by simp) (by simp)
  | handled _ hsound =>
    simpa using And.intro (notMem_mainPart hsound hends (by simp) (by simp))
      (notMem_handlerPart hsound hends)

/-- The handlers of the play may have been reported as well. -/
def Continues (log log' : PlayLog) : Prop :=
  log'.play = log.play ∧ log'.tasks = log.tasks ∧ log'.drained = log.drained ∧ log'.Sound

theorem continues_refl {logs : List PlayLog} (h : ∀ log ∈ logs, log.Sound) :
    List.Forall₂ Continues logs logs :=
  List.forall₂_same.mpr fun log hlog => ⟨rfl, rfl, rfl, h log hlog⟩

theorem complete_of_continues {plays : List Play} {logs logs' : List PlayLog}
    (h : List.Forall₂ Runs plays logs) (h' : List.Forall₂ Continues logs logs') :
    Complete plays (mainPart logs ++
      .startHandlers :: (handlerPart logs' ++ [.finishHandlers, .finishAll])) := by
  have hplays : logs'.map play = plays :=
    (map_eq_map (h'.imp fun _ _ h => h.1)).trans (play_of_runs h)
  have htasks : logs'.flatMap tasks = logs.flatMap tasks :=
    congrArg List.flatten (map_eq_map (h'.imp fun _ _ h => h.2.1))
  have hdrained : logs'.flatMap drained = logs.flatMap drained :=
    congrArg List.flatten (map_eq_map (h'.imp fun _ _ h => h.2.2.1))
  have hmain : mainPart logs' = mainPart logs := by
    unfold mainPart
    rw [htasks, hdrained]
  exact hmain ▸ .handled hplays (forall_mem_right (h'.imp fun _ _ h => h.2.2.2))

end PlayLog

namespace Runner

open Step PlayLog

/-- The phase of the handlers. -/
theorem handlers_end {logs : List PlayLog} {sts : List PlayState} (started : Bool)
    (s : RunState σ)
    (h : List.Forall₂ (fun log st => log.Sound ∧ log.Drained setup.host st) logs sts)
    (hX : ∀ log ∈ logs, log.play.Deep setup.callDepth → X) :
    (sts.foldlM (runHandlers setup) started).Ends s fun o v => ∃ logs' L,
      List.Forall₂ Continues logs logs' ∧ s.Grows setup.host (announced started o ++ L) v ∧
      Reaches setup.callDepth X o L (handlerPart logs') ∧
      (o = .ok false → started = false ∧ handlerPart logs' = []) := by
  induction h generalizing started s with
  | nil =>
    refine ⟨[], [], .nil, ?_, .done rfl, ?_⟩
    · cases started <;> exact .refl s
    · rintro ⟨⟩
      exact ⟨rfl, rfl⟩
  | @cons log st logs sts hlog hrest ih =>
    rw [List.foldlM_cons]
    obtain ⟨hX, hX'⟩ := List.forall_mem_cons.mp hX
    apply (runHandlers_ends started log st s hlog.1 hlog.2 hX).bind
    · rintro b v ⟨log', L, hlog', hL, hreaches, hb⟩
      have hquiet (hb' : b = false) : started = false ∧ log'.handlers ++ log'.late = [] :=
        hb (congrArg _ hb')
      have hL' : L = log'.handlers ++ log'.late := hreaches.all b rfl
      apply (ih b v hX').mono
      rintro o w ⟨logs', L', hlogs', hgrows, hreaches', ho⟩
      refine ⟨log' :: logs', L ++ L', .cons hlog' hlogs', ?_, hreaches.next hreaches', fun h => ?_⟩
      · rw [← announced_append (fun h => hL' ▸ hquiet h) fun h => (ho h).1]
        exact hL.trans hgrows
      · obtain ⟨hb', hlogs'⟩ := ho h
        obtain ⟨hstarted, hlog'⟩ := hquiet hb'
        refine ⟨hstarted, ?_⟩
        change (log'.handlers ++ log'.late) ++ handlerPart logs' = []
        rw [hlog', hlogs']
        rfl
    · rintro e v ⟨log', L, hlog', hL, hreaches, -⟩
      -- The handlers of the later plays report nothing any more.
      have hsame : List.Forall₂ Continues logs logs :=
        continues_refl ((List.forall₂_and_left logs sts).mp hrest).1
      exact ⟨log' :: logs, L, .cons hlog' hsame, by cases started <;> exact hL, hreaches.stop _,
        by simp⟩

/-- The handlers and the end of the phases, after the other phases have ended well. -/
theorem handlers_finish_end {plays : List Play} {logs : List PlayLog} {sts : List PlayState}
    {L : List Event} (s : RunState σ) (hruns : List.Forall₂ Runs plays logs)
    (hsts : List.Forall₂ (fun log st => log.Sound ∧ log.Drained setup.host st) logs sts)
    (hL : Reaches setup.callDepth X (.ok () : Except Stop Unit) L (mainPart logs))
    (hX : ∀ p ∈ plays, p.Deep setup.callDepth → X) :
    Ends (do
        let started ← sts.foldlM (runHandlers setup) false
        if started then emit .finishHandlers
        emit .finishAll) s fun o v => ∃ L' whole, s.Grows setup.host L' v ∧
      Complete plays whole ∧ Reaches setup.callDepth X o (L ++ L') whole := by
  have hend {A : List Event} (hA : opened A [] = []) :
      Reaches setup.callDepth X (.ok () : Except Stop Unit) A A := .done hA
  have hX' : ∀ log ∈ logs, log.play.Deep setup.callDepth → X := fun log hlog =>
    hX log.play (play_of_runs hruns ▸ List.mem_map_of_mem hlog)
  apply (handlers_end false s hsts hX').bind
  · rintro started v ⟨logs', H, hlogs', hH, hreaches, hquiet⟩
    have hH' : H = handlerPart logs' := hreaches.all started rfl
    cases started with
    | false =>
      obtain rfl := hH'.trans (hquiet rfl).2
      exact ⟨_, _, hH.trans (v.grows_push _ .finishAll), complete_of_runs hruns,
        hL.next (hend rfl)⟩
    | true =>
      have hgrows := (v.grows_push setup.host .finishHandlers).trans
        ((v.push .finishHandlers).grows_push setup.host .finishAll)
      have hreached := hL.next ((hend (A := [.startHandlers]) rfl).next (hreaches.next
        (hend (A := [.finishHandlers, .finishAll]) rfl)))
      refine ⟨_, _, hH.trans hgrows, complete_of_continues hruns hlogs', ?_⟩
      change Reaches setup.callDepth X (.ok () : Except Stop Unit) _ _
      simpa [announced] using hreached
  · rintro e v ⟨logs', H, hlogs', hH, hreaches, -⟩
    have hstopped : Reaches setup.callDepth X (.error e : Except Stop Unit) _ _ :=
      (hL.next ((hend (A := [.startHandlers]) rfl).next hreaches)).stop
        [.finishHandlers, .finishAll]
    exact ⟨_, _, hH, complete_of_continues hruns hlogs', by simpa [announced] using hstopped⟩

/-- The phases report a complete transcript, or a beginning of one. -/
theorem runPhases_ends (plays : List Play) (s : RunState σ)
    (hX : ∀ p ∈ plays, p.Deep setup.callDepth → X) :
    (runPhases setup plays).Ends s fun o v => ∃ L whole, s.Grows setup.host L v ∧
      L.head? = some .startTasks ∧ Complete plays whole ∧ Reaches setup.callDepth X o L whole := by
  have hone {e : Event} (he : opened [e] [] = []) :
      Reaches setup.callDepth X (.ok () : Except Stop Unit) [e] [e] := .done he
  have hstart := s.grows_push setup.host .startTasks
  apply Ends.modifyThen
  apply (tasks_end plays _ hX).bind
  · rintro sts v ⟨logs, L, hlogs, hL, hreaches, hsts⟩
    have hgrows := (hstart.trans hL).trans (v.grows_push setup.host .finishTasks)
    have hreached := ((hone (e := .startTasks) rfl).next hreaches).next
      (hone (e := .finishTasks) rfl)
    apply Ends.modifyThen
    apply (drains_end (s := v.push .finishTasks) (hsts sts rfl).1).bind
    · rintro sts' w ⟨logs', D, hlogs', hD, hreaches', hsts'⟩
      obtain ⟨hruns, htasks⟩ := runs_of_drained hlogs hlogs'
      have hmain : Reaches setup.callDepth X (.ok () : Except Stop Unit)
          ([.startTasks] ++ L ++ [.finishTasks] ++ D) (mainPart logs') := by
        have hparts : mainPart logs' = [.startTasks] ++ logs.flatMap tasks ++ [.finishTasks] ++
            logs'.flatMap drained := by simp [mainPart, htasks]
        rw [hparts]
        exact (hreached.next hreaches').answer ()
      apply (handlers_finish_end w hruns (hsts' sts' rfl).1 hmain hX).mono
      rintro o t ⟨L', whole, hL', hwhole, hend⟩
      exact ⟨_, whole, (hgrows.trans hD).trans hL', by simp, hwhole, hend⟩
    · rintro e w ⟨logs', D, hlogs', hD, hreaches', -⟩
      obtain ⟨hruns, htasks⟩ := runs_of_drained hlogs hlogs'
      have hstopped : Reaches setup.callDepth X (.error e : Except Stop Unit) _ _ :=
        (hreached.next hreaches').stop [.finishAll]
      rw [← htasks] at hstopped
      exact ⟨_, _, hgrows.trans hD, by simp, complete_of_runs hruns,
        by simpa [mainPart] using hstopped⟩
  · rintro e v ⟨logs, L, hlogs, hL, hreaches, -⟩
    have hstopped : Reaches setup.callDepth X (.error e : Except Stop Unit) _ _ :=
      ((hone (e := .startTasks) rfl).next hreaches).stop
        (.finishTasks :: logs.flatMap drained ++ [.finishAll])
    exact ⟨_, _, hstart.trans hL, by simp, complete_of_runs hlogs,
      by simpa [mainPart] using hstopped⟩

end Runner

end PlaybookRunner
