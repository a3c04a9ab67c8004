import PlaybookRunner.Proofs.Honest
import PlaybookRunner.Proofs.Reports

/-!
# The phases of a run

The plays run, then their deferred tasks are awaited, then their handlers run. A
phase that is stopped has reported a beginning of what it would have reported, so
the logs of the plays can be completed at each point: with nothing for what has
not run yet, and with some results for the tasks that are still deferred.
-/

namespace PlaybookRunner

variable {σ α β : Type} {host : Host σ}

open Transcript

namespace Transcript

/-- The module calls that an outcome leaves open. -/
def openCalls (depth : Nat) : Except Stop α → Nat
  | .error .tooDeep => depth
  | _ => 0

/-- What a part reports of a whole: all of it if the part ends well, otherwise a
beginning that leaves no task open, or as many as module calls may be nested. The
condition is what must hold for module calls to be nested too deep. -/
structure Reaches (depth : Nat) (X : Prop) (o : Except Stop α) (L whole : List Event) : Prop where
  begins : L <+: whole
  opened_length : (opened L []).length = openCalls depth o
  all : ∀ a, o = .ok a → L = whole
  deep : o = .error .tooDeep → X

namespace Reaches

variable {depth : Nat} {X : Prop} {A B L L' : List Event} {a : α}

theorem done (h : opened A [] = []) : Reaches depth X (.ok a) A A :=
  ⟨List.prefix_refl A, by rw [h]; rfl, fun _ _ => rfl, by simp⟩

/-- A stopped part has reported the beginning of whatever would have followed. -/
theorem stop {e : Stop} (h : Reaches depth X (.error e : Except Stop α) L A) (B : List Event) :
    Reaches depth X (.error e : Except Stop β) L (A ++ B) :=
  ⟨h.begins.trans (List.prefix_append A B), by cases e <;> exact h.opened_length, by simp,
    fun he => h.deep (congrArg _ (Except.error.inj he))⟩

theorem next {o : Except Stop β} (h : Reaches depth X (.ok a) L A) (h' : Reaches depth X o L' B) :
    Reaches depth X o (L ++ L') (A ++ B) := by
  obtain rfl := h.all a rfl
  have hclosed : opened L [] = [] := List.eq_nil_of_length_eq_zero h.opened_length
  refine ⟨(List.prefix_append_right_inj L).mpr h'.begins, ?_, fun b hb => ?_, h'.deep⟩
  · rw [opened_append, hclosed, h'.opened_length]
  · rw [h'.all b hb]

theorem answer (h : Reaches depth X (.ok a : Except Stop α) L A) (b : β) :
    Reaches depth X (.ok b : Except Stop β) L A :=
  ⟨h.begins, h.opened_length, fun _ _ => h.all a rfl, by simp⟩

theorem error {e : Stop} (h : Reaches depth X (.error e : Except Stop α) L A) :
    Reaches depth X (.error e : Except Stop β) L A := by
  simpa using h.stop []

end Reaches

end Transcript

/-- Deferred tasks are awaited: their reports, as far as they came, and the state
in which this leaves the running play. -/
structure RunState.Awaits (host : Host σ) (depth : Nat) (s : RunState σ) (o : Except Stop Unit)
    (L whole : List Event) (v : RunState σ) : Prop where
  grows : s.Grows host L v
  reaches : ∀ X, Reaches depth X o L whole
  play : v.current.play = s.current.play
  deferred : v.current.deferred = s.current.deferred
  ok_of_nil : whole = [] → o = .ok ()
  notified : o = .ok () → host.Honest → ∀ name,
    name ∈ v.current.notified ↔ name ∈ s.current.notified ∨ name ∈ notices whole

/-- The start of the handlers is announced by the first one that runs; an outcome
`false` says that none has run. -/
def announced (started : Bool) : Except Stop Bool → List Event
  | .ok false => []
  | _ => if started then [] else [.startHandlers]

/-- How a part that runs some handlers ends, and what it reports. -/
def Handled (p : Play) (n : Nat) (started : Bool) (turns : List Task) (o : Except Stop Bool)
    (L : List Event) : Prop :=
  ∃ A, Ran p n turns o A ∧ L = announced started o ++ A ∧ (o = .ok false → started = false ∧ A = [])

theorem dispatched_announced (started : Bool) (o : Except Stop Bool) :
    dispatched (announced started o) = [] := by
  unfold announced
  split
  · rfl
  · split <;> rfl

theorem announced_append {started b : Bool} {o : Except Stop Bool} {A B : List Event}
    (hb : b = false → started = false ∧ A = []) (ho : o = .ok false → b = false) :
    (announced started (.ok b) ++ A) ++ (announced b o ++ B) = announced started o ++ (A ++ B) := by
  cases b with
  | false =>
    obtain ⟨rfl, rfl⟩ := hb rfl
    rfl
  | true =>
    rcases o with e | (_ | _)
    · cases started <;> simp [announced]
    · cases ho rfl
    · cases started <;> simp [announced]

/-- Turns reach the turns that complete them. -/
theorem Ran.reaches {p : Play} {n : Nat} {turns : List Task} {o : Except Stop α} {L : List Event}
    {X : Prop} (h : Ran p n turns o L) (hX : (∃ t ∈ turns, p.Nests n t) → X) :
    ∃ whole, Brackets p turns whole ∧ Reaches n X o L whole := by
  rcases o with (e | _) | a
  · have hL : Brackets p turns L := h
    exact ⟨L, h, List.prefix_refl L, by rw [hL.opened_eq]; rfl, by simp, by simp⟩
  · obtain ⟨⟨rest, hrest⟩, hopened, hnests⟩ := h
    exact ⟨L ++ rest, hrest, List.prefix_append L rest, hopened [], by simp, fun _ => hX hnests⟩
  · exact ⟨L, h, .done (Brackets.opened_eq h [])⟩

namespace PlayLog

/-- Nothing of the handlers has been reported. -/
def Quiet (log : PlayLog) : Prop := log.handlers = [] ∧ log.late = []

/-- The log of a play whose tasks have reported. -/
def ofTasks (p : Play) (L : List Event) : PlayLog :=
  { play := p, tasks := L, drained := awaitAll (dispatched L), handlers := [], late := [] }

theorem sound_ofTasks {p : Play} {L : List Event}
    (h : Brackets p (p.tasks.flatMap Task.turns) L) : (ofTasks p L).Sound :=
  ⟨h, .awaitAll _, .nothing _, .nil⟩

/-- The play is in a state as its tasks have left it. -/
def Played (host : Host σ) (w : World σ) (log : PlayLog) (st : PlayState) : Prop :=
  ∃ table, ({ play := log.play, table } : PlayState).Moves host w log.tasks st

/-- The play is in a state in which its deferred tasks have been awaited. -/
structure Drained (host : Host σ) (log : PlayLog) (st : PlayState) : Prop where
  play : st.play = log.play
  deferred : st.deferred = []
  notified : host.Honest →
    ∀ name, name ∈ st.notified ↔ name ∈ notices (log.tasks ++ log.drained)

theorem Played.later {v w : World σ} {log : PlayLog} {st : PlayState} (h : log.Played host v st)
    (hw : v.Later host w) : log.Played host w st := by
  obtain ⟨table, hmoves⟩ := h
  exact ⟨table, hmoves.later hw⟩

end PlayLog

namespace Runner

open Step

variable {setup : Setup σ} {depth : Nat} {X : Prop}

/-- A phase goes through its plays one by one: if each play reports its part of
its own log, the phase reports these parts in order. -/
theorem ends_mapM {ι : Type} {f : α → Step σ β} {B : World σ → ι → α → Prop}
    {C : ι → PlayLog → Prop} {part : PlayLog → List Event} {D : World σ → PlayLog → β → Prop}
    (hbefore : ∀ {v w i a}, v.Later host w → B v i a → B w i a)
    (hafter : ∀ {v w log b}, v.Later host w → D v log b → D w log b)
    (hcompletes : ∀ {w i a}, B w i a → ∃ log, C i log)
    (hf : ∀ i a s, B s.world i a → (f a).Ends s fun o v => ∃ log L, C i log ∧
      s.Grows host L v ∧ Reaches depth X o L (part log) ∧ ∀ b, o = .ok b → D v.world log b)
    {is : List ι} {as : List α} {s : RunState σ} (h : List.Forall₂ (B s.world) is as) :
    (as.mapM f).Ends s fun o v => ∃ logs L, List.Forall₂ C is logs ∧
      s.Grows host L v ∧ Reaches depth X o L (logs.flatMap part) ∧
      ∀ bs, o = .ok bs → List.Forall₂ (D v.world) logs bs ∧ InTurn f s as bs (logs.map part) v := by
  induction as generalizing is s with
  | nil =>
    obtain rfl := List.forall₂_nil_right_iff.mp h
    exact .pure ⟨[], [], .nil, .refl s, .done rfl, by rintro _ ⟨⟩; exact ⟨.nil, .nil s⟩⟩
  | cons a as ih =>
    obtain ⟨i, is, hia, hrest, rfl⟩ := List.forall₂_cons_right_iff.mp h
    rw [List.mapM_cons]
    apply (hf i a s hia).withRun.bind
    · rintro b v ⟨⟨log, L, hlog, hL, hreach, hb⟩, hrun⟩
      have hfirst : (f a).Gives s b (part log) v := ⟨hrun, hreach.all b rfl ▸ hL.events⟩
      apply (ih (hrest.imp fun _ _ => hbefore hL.later)).bind
      · rintro bs w ⟨logs, L', hlogs, hL', hreach', hbs⟩
        refine .pure ⟨log :: logs, L ++ L', .cons hlog hlogs, hL.trans hL', ?_, ?_⟩
        · exact hreach.next (hreach'.answer _)
        · rintro _ ⟨⟩
          obtain ⟨hdone, hturns⟩ := hbs bs rfl
          exact ⟨.cons (hafter hL'.later (hb b rfl)) hdone, .cons hfirst hturns⟩
      · rintro e w ⟨logs, L', hlogs, hL', hreach', -⟩
        refine ⟨log :: logs, L ++ L', .cons hlog hlogs, hL.trans hL', ?_, by simp⟩
        exact hreach.next (hreach'.error)
    · rintro e v ⟨⟨log, L, hlog, hL, hreach, -⟩, -⟩
      -- The plays that were not reached get whatever logs complete them.
      obtain ⟨logs, hlogs⟩ : ∃ logs, List.Forall₂ C is logs := by
        clear ih h
        induction hrest with
        | nil => exact ⟨[], .nil⟩
        | cons hja _ ih =>
          obtain ⟨log, hlog⟩ := hcompletes hja
          obtain ⟨logs, hlogs⟩ := ih
          exact ⟨log :: logs, .cons hlog hlogs⟩
      exact ⟨log :: logs, L, .cons hlog hlogs, hL, hreach.stop _, by simp⟩

theorem adds_runPlayTask (p : Play) (t : Task) :
    Adds setup.host p (runPlayTask setup t) (Ran p setup.callDepth t.turns) :=
  .getThen fun _ _ => adds_runTask setup p setup.callDepth t _

theorem runPlay_ends (p : Play) (s : RunState σ) (hX : p.Deep setup.callDepth → X) :
    (runPlay setup p).Ends s fun o v => ∃ (log : PlayLog) (L : List Event),
      (log.play = p ∧ log.Sound ∧ log.Quiet) ∧
      s.Grows setup.host L v ∧ Reaches setup.callDepth X o L log.tasks ∧
      ∀ st, o = .ok st → log.Played setup.host v.world st := by
  have htasks : Adds setup.host p (anyChanged (runPlayTask setup) p.tasks) _ :=
    adds_anyChanged p.tasks (adds_runPlayTask p)
  have htable : s.world.Later setup.host (s.world.newTable p.vars).2 := ⟨[], .quiet rfl rfl⟩
  apply Ends.inWorldThen
  apply Ends.modifyThen
  apply (htasks _ rfl).bind
  · rintro changed v ⟨L, hL, hran⟩
    have hlater := htable.trans hL.later
    refine ⟨.ofTasks p L, L, ⟨rfl, PlayLog.sound_ofTasks hran, rfl, rfl⟩, ⟨hL.events, hlater⟩,
      .done (Brackets.opened_eq hran []), ?_⟩
    rintro _ ⟨⟩
    exact ⟨_, hL.current⟩
  · rintro e v ⟨L, hL, hran⟩
    have hlater := htable.trans hL.later
    obtain ⟨whole, hwhole, hreaches⟩ : ∃ whole, _ ∧ Reaches setup.callDepth X _ L whole :=
      hran.reaches fun ⟨t, ht, hnests⟩ =>
        hX ⟨t, List.mem_append_left _ (Task.mem_of_mem_turns ht), hnests⟩
    exact ⟨.ofTasks p whole, L, ⟨rfl, PlayLog.sound_ofTasks hwhole, rfl, rfl⟩, ⟨hL.events, hlater⟩,
      hreaches.error, by simp⟩

theorem await_ends (d : Deferred) (s : RunState σ) (hd : d.Settled setup.host s.world) :
    (await setup d).Ends s fun o v => ∃ result,
      s.Awaits setup.host setup.callDepth o [.finishTask d.task (some result)]
        [.finishTask d.task (some result)] v := by
  obtain ⟨f, command, scope, outcome, hf, hp, ho⟩ := hd
  have hforce : (Future.force setup.host d.future).run s.world =
      (outcome.mapError (.futureFailed f.name), s.world) :=
    Future.run_force_of_answer? (World.answer?_of_settled hf hp)
  apply Ends.inWorldThen
  rw [hforce]
  cases outcome with
  | error message =>
    refine ⟨_, ⟨Array.toList_push, .refl _⟩, fun _ => ⟨List.prefix_refl _, rfl, ?_, ?_⟩, rfl, rfl,
      by simp, ?_⟩
    · rintro _ ⟨⟩
    · rintro ⟨⟩
    · rintro ⟨⟩
  | ok result =>
    have hmoves : s.current.Moves setup.host s.world [.finishTask d.task (some result)] _ :=
      s.current.moves_finish s.world d.task result
    -- Awaiting does not look at failures, so the notices agree for honest commands only.
    by_cases hchanged : result.changed
    · refine ⟨result, ?_⟩
      simp only [Except.mapError, if_pos hchanged]
      refine ⟨⟨Array.toList_push, .refl _⟩, fun _ => .done rfl, rfl, rfl, by simp,
        fun _ hhost => ?_⟩
      rw [ho.unfailed hhost result rfl, hchanged] at hmoves
      exact hmoves.notified
    · refine ⟨result, ?_⟩
      simp only [Except.mapError, if_neg hchanged]
      refine ⟨⟨Array.toList_push, .refl _⟩, fun _ => .done rfl, rfl, rfl, by simp,
        fun _ _ => ?_⟩
      rw [Bool.eq_false_iff.mpr hchanged, Bool.and_false] at hmoves
      exact hmoves.notified

theorem forM_await_ends (ds : List Deferred) (s : RunState σ)
    (hds : ∀ d ∈ ds, d.Settled setup.host s.world) :
    (ds.forM (await setup)).Ends s fun o v => ∃ L whole, Awaited (ds.map Deferred.task) whole ∧
      s.Awaits setup.host setup.callDepth o L whole v := by
  induction ds generalizing s with
  | nil =>
    refine ⟨[], [], .nil, .refl s, fun _ => .done rfl, rfl, rfl, fun _ => rfl, fun _ _ name => ?_⟩
    exact (or_iff_left List.not_mem_nil).symm
  | cons d ds ih =>
    change (await setup d >>= fun _ => ds.forM (await setup)).Ends s _
    apply (await_ends d s (hds d List.mem_cons_self)).bind
    · rintro _ v ⟨result, hfirst⟩
      have hds' : ∀ d ∈ ds, d.Settled setup.host v.world := fun d' hd' =>
        (hds d' (List.mem_cons_of_mem d hd')).later hfirst.grows.later
      apply (ih v hds').mono
      rintro o w ⟨L, whole, hwhole, hrest⟩
      refine ⟨_, .finishTask d.task (some result) :: whole, hwhole.cons result,
        hfirst.grows.trans hrest.grows, fun X => (hfirst.reaches X).next (hrest.reaches X),
        hrest.play.trans hfirst.play, hrest.deferred.trans hfirst.deferred, by simp,
        fun ho hhost name => ?_⟩
      rw [hrest.notified ho hhost, hfirst.notified rfl hhost, or_assoc, ← List.mem_append,
        ← notices_append]
      rfl
    · rintro e v ⟨result, hfirst⟩
      exact ⟨_, _, (Awaited.awaitAll _).cons result, hfirst.grows,
        fun X => (hfirst.reaches X).stop _, hfirst.play, hfirst.deferred, by simp, by simp⟩

theorem drain_ends (s : RunState σ) (hds : ∀ d ∈ s.current.deferred, d.Settled setup.host s.world) :
    (drain setup).Ends s fun o v => ∃ L whole,
      Awaited (s.current.deferred.map Deferred.task) whole ∧
        ({ s with current := { s.current with deferred := [] } } : RunState σ).Awaits setup.host
          setup.callDepth o L whole v :=
  forM_await_ends s.current.deferred { s with current := { s.current with deferred := [] } } hds

theorem drainPlay_ends (log : PlayLog) (st : PlayState) (s : RunState σ)
    (hlog : log.Sound ∧ log.Quiet ∧ log.Played setup.host s.world st) :
    (drainPlay setup st).Ends s fun o v => ∃ (log' : PlayLog) (L : List Event),
      (log'.play = log.play ∧ log'.tasks = log.tasks ∧ log'.Sound ∧ log'.Quiet) ∧
      s.Grows setup.host L v ∧ Reaches setup.callDepth X o L log'.drained ∧
      ∀ st', o = .ok st' → log'.Drained setup.host st' := by
  obtain ⟨hsound, hquiet, table, hmoves⟩ := hlog
  obtain ⟨ds, hds, htasks, hsettled⟩ := hmoves.deferred
  rw [List.nil_append] at hds
  apply Ends.modifyThen
  apply (drain_ends { s with current := st } (hds ▸ hsettled)).bind
  · rintro _ v ⟨L, whole, hwhole, hawaits⟩
    rw [hds, htasks] at hwhole
    refine ⟨{ log with drained := whole }, L, ⟨rfl, rfl, { hsound with drained := hwhole }, hquiet⟩,
      ⟨hawaits.grows.events, hawaits.grows.later⟩, (hawaits.reaches X).answer _, ?_⟩
    rintro _ ⟨⟩
    refine ⟨hawaits.play.trans hmoves.play, hawaits.deferred, fun hhost name => ?_⟩
    rw [hawaits.notified rfl hhost, notices_append, List.mem_append]
    exact or_congr_left ((hmoves.notified name).trans (or_iff_right List.not_mem_nil))
  · rintro e v ⟨L, whole, hwhole, hawaits⟩
    rw [hds, htasks] at hwhole
    exact ⟨{ log with drained := whole }, L, ⟨rfl, rfl, { hsound with drained := hwhole }, hquiet⟩,
      ⟨hawaits.grows.events, hawaits.grows.later⟩, (hawaits.reaches X).error,
      by simp⟩

/-- The phase of the tasks. -/
theorem tasks_end (plays : List Play) (s : RunState σ)
    (hX : ∀ p ∈ plays, p.Deep setup.callDepth → X) :
    (plays.mapM (runPlay setup)).Ends s fun o v => ∃ logs L,
      List.Forall₂ (fun p log => log.play = p ∧ log.Sound ∧ log.Quiet) plays logs ∧
      s.Grows setup.host L v ∧ Reaches setup.callDepth X o L (logs.flatMap PlayLog.tasks) ∧
      ∀ sts, o = .ok sts →
        List.Forall₂ (fun log st => log.Sound ∧ log.Quiet ∧ log.Played setup.host v.world st)
          logs sts ∧
        InTurn (runPlay setup) s plays sts (logs.map PlayLog.tasks) v := by
  apply ends_mapM (B := fun _ p q => p = q ∧ (p.Deep setup.callDepth → X))
    (D := fun w log st => log.Sound ∧ log.Quiet ∧ log.Played setup.host w st)
  · exact fun _ h => h
  · exact fun hw ⟨hsound, hquiet, hplayed⟩ => ⟨hsound, hquiet, hplayed.later hw⟩
  · exact fun {_ p _} _ => ⟨.ofTasks p [], rfl, PlayLog.sound_ofTasks (.nothing _), rfl, rfl⟩
  · rintro p _ s ⟨rfl, hX⟩
    apply (runPlay_ends p s hX).mono
    rintro o v ⟨log, L, hlog, hL, hreaches, hst⟩
    exact ⟨log, L, hlog, hL, hreaches, fun st ho => ⟨hlog.2.1, hlog.2.2, hst st ho⟩⟩
  · exact List.forall₂_same.mpr fun p hp => ⟨rfl, hX p hp⟩

/-- The phase in which the deferred tasks are awaited. -/
theorem drains_end {logs : List PlayLog} {sts : List PlayState} {s : RunState σ}
    (h : List.Forall₂ (fun log st => log.Sound ∧ log.Quiet ∧ log.Played setup.host s.world st)
      logs sts) :
    (sts.mapM (drainPlay setup)).Ends s fun o v => ∃ logs' L,
      List.Forall₂ (fun log log' => log'.play = log.play ∧ log'.tasks = log.tasks ∧ log'.Sound ∧
        log'.Quiet) logs logs' ∧
      s.Grows setup.host L v ∧ Reaches setup.callDepth X o L (logs'.flatMap PlayLog.drained) ∧
      ∀ sts', o = .ok sts' →
        List.Forall₂ (fun log st => log.Sound ∧ log.Drained setup.host st) logs' sts' ∧
        InTurn (drainPlay setup) s sts sts' (logs'.map PlayLog.drained) v := by
  refine ends_mapM (B := fun w log st => log.Sound ∧ log.Quiet ∧ log.Played setup.host w st)
    (D := fun _ log st => log.Sound ∧ log.Drained setup.host st) ?_ ?_ ?_ ?_ h
  · exact fun hw ⟨hsound, hquiet, hplayed⟩ => ⟨hsound, hquiet, hplayed.later hw⟩
  · exact fun _ h => h
  · exact fun {_ log _} ⟨hsound, hquiet, _⟩ => ⟨log, rfl, rfl, hsound, hquiet⟩
  · intro log st s hlog
    apply (drainPlay_ends log st s hlog).mono
    rintro o v ⟨log', L, hlog', hL, hreaches, hst⟩
    exact ⟨log', L, hlog', hL, hreaches, fun st ho => ⟨hlog'.2.2.1, hst st ho⟩⟩

theorem adds_runHandler (p : Play) (started : Bool) (h : Task) :
    Adds setup.host p (runHandler setup started h)
      (Handled p setup.callDepth started h.turns) := by
  have htask : Adds setup.host p (runPlayTask setup h >>= fun _ => pure true) fun o L =>
      Ran p setup.callDepth h.turns o L ∧ o ≠ .ok false := by
    apply (adds_runPlayTask p h).bind
    · intro changed L hL
      apply Adds.pure
      rw [List.append_nil]
      exact ⟨hL, by simp⟩
    · intro e L hL
      exact ⟨hL, by simp⟩
  have hannounced (o : Except Stop Bool) (ho : o ≠ .ok false) :
      announced started o = if started then [] else [.startHandlers] := by
    rcases o with e | (_ | _)
    · rfl
    · exact absurd rfl ho
    · rfl
  apply Adds.getThen
  intro s _
  by_cases hnotified : s.current.notified.contains h.name
  · simp only [if_pos hnotified]
    cases started with
    | true =>
      apply htask.mono
      rintro o L ⟨hL, ho⟩
      exact ⟨L, hL, by simp [hannounced o ho], fun h => absurd h ho⟩
    | false =>
      apply Adds.next (Adds.emit rfl rfl)
      intro _
      apply htask.mono
      rintro o L ⟨hL, ho⟩
      exact ⟨L, hL, by simp [hannounced o ho], fun h => absurd h ho⟩
  · simp only [if_neg hnotified]
    exact .pure ⟨[], .nothing _, by cases started <;> rfl, by simp⟩

theorem adds_handlers (p : Play) (started : Bool) (hs : List Task) :
    Adds setup.host p (hs.foldlM (runHandler setup) started)
      (Handled p setup.callDepth started (hs.flatMap Task.turns)) := by
  induction hs generalizing started with
  | nil => exact .pure ⟨[], .nil, by cases started <;> rfl, by simp⟩
  | cons h hs ih =>
    rw [List.foldlM_cons, List.flatMap_cons]
    apply (adds_runHandler p started h).bind
    · rintro b _ ⟨A, hA, rfl, hb⟩
      have hb' : b = false → started = false ∧ A = [] := fun h => hb (congrArg _ h)
      apply (ih b).mono
      rintro o _ ⟨A', hA', rfl, ho⟩
      refine ⟨A ++ A', ?_, ?_, fun h => ?_⟩
      · exact hA'.after hA
      · exact announced_append hb' fun h => (ho h).1
      · obtain ⟨rfl, rfl⟩ := ho h
        obtain ⟨hstarted, rfl⟩ := hb' rfl
        exact ⟨hstarted, rfl⟩
    · rintro e _ ⟨A, hA, rfl, -⟩
      exact ⟨A, hA.append_turns _, by cases started <;> rfl, by simp⟩

/-- What the handlers of a play add to its log. -/
theorem runHandlers_ends (started : Bool) (log : PlayLog) (st : PlayState) (s : RunState σ)
    (hsound : log.Sound) (hdrained : log.Drained setup.host st)
    (hX : log.play.Deep setup.callDepth → X) :
    (runHandlers setup started st).Ends s fun o v => ∃ (log' : PlayLog) (L : List Event),
      (log'.play = log.play ∧ log'.tasks = log.tasks ∧ log'.drained = log.drained ∧ log'.Sound) ∧
      s.Grows setup.host (announced started o ++ L) v ∧
      Reaches setup.callDepth X o L (log'.handlers ++ log'.late) ∧
      (o = .ok false → started = false ∧ log'.handlers ++ log'.late = []) := by
  apply Ends.modifyThen
  rw [hdrained.play]
  apply (adds_handlers log.play started log.play.handlers _ hdrained.play).bind
  · rintro b v ⟨_, hL, A, hA, rfl, hb⟩
    have hA' : Brackets log.play (log.play.handlers.flatMap Task.turns) A := hA
    obtain ⟨ds, hds, htasks, hsettled⟩ := hL.current.deferred
    rw [dispatched_append, dispatched_announced, List.nil_append] at htasks
    have hdeferred : v.current.deferred = ds := by
      rw [hds]
      exact congrArg (· ++ ds) hdrained.deferred
    have hclosed : Reaches setup.callDepth X (.ok b : Except Stop Bool) A A :=
      .done (hA'.opened_eq [])
    have hsound' {whole : List Event} (hwhole : Awaited (dispatched A) whole) :
        ({ log with handlers := A, late := whole } : PlayLog).Sound :=
      { hsound with handlers := hA', late := hwhole }
    have hquiet {whole : List Event} (hwhole : Awaited (dispatched A) whole) (hb' : b = false) :
        started = false ∧ A = [] ∧ whole = [] := by
      obtain ⟨hstarted, rfl⟩ := hb (congrArg _ hb')
      exact ⟨hstarted, rfl, List.forall₂_nil_left_iff.mp hwhole⟩
    have hgrows {L : List Event} {w : RunState σ} (hw : v.Grows setup.host L w) :
        s.Grows setup.host (announced started (.ok b) ++ (A ++ L)) w := by
      refine ⟨?_, hL.later.trans hw.later⟩
      rw [hw.events, hL.events]
      simp
    have hdrain := drain_ends v (hdeferred ▸ hsettled)
    rw [hdeferred, htasks] at hdrain
    apply hdrain.bind
    · rintro _ w ⟨L, whole, hwhole, hawaits⟩
      refine .pure ⟨{ log with handlers := A, late := whole }, A ++ L,
        ⟨rfl, rfl, rfl, hsound' hwhole⟩, hgrows ⟨hawaits.grows.events, hawaits.grows.later⟩,
        hclosed.next ((hawaits.reaches X).answer _), ?_⟩
      rintro ⟨⟩
      obtain ⟨hstarted, rfl, rfl⟩ := hquiet hwhole rfl
      exact ⟨hstarted, rfl⟩
    · rintro e w ⟨L, whole, hwhole, hawaits⟩
      -- Only a handler that ran can have deferred a task that fails now.
      have hb' : b = true := by
        by_contra hne
        obtain ⟨-, -, rfl⟩ := hquiet hwhole (Bool.eq_false_iff.mpr hne)
        cases hawaits.ok_of_nil rfl
      subst hb'
      refine ⟨{ log with handlers := A, late := whole }, A ++ L, ⟨rfl, rfl, rfl, hsound' hwhole⟩,
        ?_, hclosed.next ((hawaits.reaches X).error), by simp⟩
      exact hgrows ⟨hawaits.grows.events, hawaits.grows.later⟩
  · rintro e v ⟨_, hL, A, hA, rfl, -⟩
    obtain ⟨whole, hwhole, hreaches⟩ : ∃ whole, _ ∧ Reaches setup.callDepth X _ A whole :=
      hA.reaches fun ⟨t, ht, hnests⟩ =>
        hX ⟨t, List.mem_append_right _ (Task.mem_of_mem_turns ht), hnests⟩
    refine ⟨{ log with handlers := whole, late := awaitAll (dispatched whole) }, A,
      ⟨rfl, rfl, rfl, ?_⟩, ⟨hL.events, hL.later⟩, hreaches.stop _, by simp⟩
    exact { hsound with handlers := hwhole, late := .awaitAll _ }

end Runner

end PlaybookRunner
