import Mathlib
import PlaybookRunner.Proofs.Reruns

/-!
# Plays by themselves

The plays of a run share nothing but the root scope. Beside a run of many plays the run
of each play alone is followed: its tables and futures correspond to those of the play
in the run of many, and the tables of the plays before it are reserved. So each play
adds to the run of many what it adds to its own.
-/

namespace PlaybookRunner

variable {σ α β : Type}

/-- What a play adds to a run: by its tasks, while its deferred tasks are awaited, and by
its handlers. -/
structure Share where
  tasks : Part := {}
  drained : Part := {}
  handlers : Part := {}
  /-- Some handler runs. -/
  handled : Bool := false
  quiet : handled = false → handlers.events = [] ∧ handlers.recorded = [] := by simp

namespace Share

/-- The handlers are announced by the first that runs. -/
def announcement (ran started : Bool) : List Event :=
  if ran && !started then [.startHandlers] else []

/-- The events of a run that consists of these shares. -/
def events (shares : List Share) : List Event :=
  let handlers :=
    if shares.any handled then
      .startHandlers :: (shares.flatMap (·.handlers.events) ++ [.finishHandlers])
    else []
  .startTasks :: (shares.flatMap (·.tasks.events) ++
    .finishTasks :: (shares.flatMap (·.drained.events) ++ (handlers ++ [.finishAll, .ended none])))

/-- What is recorded in a run that consists of these shares. -/
def recorded (shares : List Share) : List (Task × TaskResult) :=
  shares.flatMap (·.tasks.recorded) ++ shares.flatMap (·.drained.recorded) ++
    shares.flatMap (·.handlers.recorded)

end Share

/-- The run ends well, and consists of the shares of its plays. -/
structure Runner.Report.Consists (r : Runner.Report σ) (shares : List Share) : Prop where
  error : r.error = none
  tooDeep : r.tooDeep = false
  events : r.events = Share.events shares
  recorded : r.world.recorded.toList = Share.recorded shares

namespace RunState

variable {s u v : RunState σ} {P : Part} {parts : List Part}

/-- The run reports and records these parts one after the other. -/
structure LogsEach (parts : List Part) (s v : RunState σ) : Prop where
  events : v.events.toList = s.events.toList ++ parts.flatMap (·.events)
  recorded : v.world.recorded.toList = s.world.recorded.toList ++ parts.flatMap (·.recorded)

theorem LogsEach.nil (s : RunState σ) : LogsEach [] s s :=
  ⟨(List.append_nil _).symm, (List.append_nil _).symm⟩

theorem LogsEach.cons (h : s.Logs P u) (h' : LogsEach parts u v) : LogsEach (P :: parts) s v where
  events := by rw [h'.events, h.events, List.append_assoc, List.flatMap_cons]
  recorded := by rw [h'.recorded, h.recorded, List.append_assoc, List.flatMap_cons]

theorem events_announceIf (ran started : Bool) (s : RunState σ) :
    (s.announceIf ran started).events.toList =
      s.events.toList ++ Share.announcement ran started := by
  unfold announceIf Share.announcement
  split
  · exact Array.toList_push
  · exact (List.append_nil _).symm

/-- Only the first handlers that run are announced. -/
theorem LogsEach.announced {ran more started : Bool} (h : (s.announceIf ran started).Logs P u)
    (hquiet : ran = false → P.events = [] ∧ P.recorded = [])
    (h' : LogsEach parts (u.announceIf more (started || ran)) v) :
    LogsEach (P :: parts) (s.announceIf (ran || more) started) v := by
  have hevents := h'.events
  have hrecorded := h'.recorded
  rw [events_announceIf, h.events, events_announceIf] at hevents
  rw [world_announceIf, h.recorded, world_announceIf] at hrecorded
  refine ⟨?_, ?_⟩
  · rw [hevents, events_announceIf, List.flatMap_cons]
    cases ran with
    | false =>
      rw [(hquiet rfl).1, Bool.false_or, Bool.or_false]
      simp [Share.announcement]
    | true =>
      rw [Bool.true_or, Bool.or_true]
      simp [Share.announcement]
  · rw [hrecorded, world_announceIf, List.flatMap_cons, List.append_assoc]

end RunState

namespace Runner

open Step RunState

variable {setup : Setup σ}

theorem run_mapM_singleton {f : α → Step σ β} {a : α} {b : β} {s v : RunState σ}
    (h : (f a).run.run s = (.ok b, v)) : ([a].mapM f).run.run s = (.ok [b], v) := by
  rw [List.mapM_cons, run_bind_of_ok h]
  rfl

/-- The phases of a run put the shares of its plays together. -/
theorem consists_of_phases {book : Playbook} {world : World σ} {shares : List Share}
    {sts sts' : List PlayState} {u u' v : RunState σ}
    (hplays : (book.plays.mapM (runPlay setup)).run.run
      ((RunState.initial world).push .startTasks) = (.ok sts, u))
    (htasks : LogsEach (shares.map (·.tasks)) ((RunState.initial world).push .startTasks) u)
    (hdrains : (sts.mapM (drainPlay setup)).run.run (u.push .finishTasks) = (.ok sts', u'))
    (hdrained : LogsEach (shares.map (·.drained)) (u.push .finishTasks) u')
    (hhandlers : (sts'.foldlM (runHandlers setup) false).run.run u' =
      (.ok (shares.any (·.handled)), v))
    (hhandled : LogsEach (shares.map (·.handlers))
      (u'.announceIf (shares.any (·.handled)) false) v) :
    (run setup book world).Consists shares := by
  have htell (e : Event) (s : RunState σ) : (emit e).run.run s = (.ok (), s.push e) := rfl
  have hend : (runPhases setup book.plays).run.run (RunState.initial world) = (.ok (),
      (if shares.any (·.handled) then v.push .finishHandlers else v).push .finishAll) := by
    unfold runPhases
    rw [run_bind_of_ok (htell _ _), run_bind_of_ok hplays, run_bind_of_ok (htell _ _),
      run_bind_of_ok hdrains, run_bind_of_ok hhandlers]
    cases shares.any (·.handled) <;> rfl
  have hevents := hhandled.events
  have hrecorded := hhandled.recorded
  rw [events_announceIf, hdrained.events, Share.announcement] at hevents
  rw [world_announceIf, hdrained.recorded] at hrecorded
  change v.events.toList = (u.events.push .finishTasks).toList ++ _ ++ _ ++ _ at hevents
  change v.world.recorded.toList = u.world.recorded.toList ++ _ ++ _ at hrecorded
  rw [Array.toList_push, htasks.events] at hevents
  rw [htasks.recorded] at hrecorded
  have hquiet : shares.any (·.handled) = false → shares.flatMap (·.handlers.events) = [] := by
    intro hnone
    refine List.flatMap_eq_nil_iff.mpr fun x hx => (x.quiet ?_).1
    simpa using List.any_eq_false.mp hnone x hx
  rw [run_eq, hend]
  cases hany : shares.any (·.handled) with
  | false =>
    refine ⟨rfl, rfl, ?_, ?_⟩
    · change (v.events.push .finishAll).toList ++ [.ended none] = _
      rw [Array.toList_push, hevents, hany]
      simp [Share.events, hany, List.flatMap_map, hquiet hany, RunState.initial, RunState.push]
    · change v.world.recorded.toList = _
      rw [hrecorded]
      simp [Share.recorded, List.flatMap_map, RunState.initial, RunState.push]
  | true =>
    refine ⟨rfl, rfl, ?_, ?_⟩
    · change ((v.events.push .finishHandlers).push .finishAll).toList ++ [.ended none] = _
      rw [Array.toList_push, Array.toList_push, hevents, hany]
      simp [Share.events, hany, List.flatMap_map, RunState.initial, RunState.push]
    · change v.world.recorded.toList = _
      rw [hrecorded]
      simp [Share.recorded, List.flatMap_map, RunState.initial, RunState.push]

end Runner

/-- The run of a play alone, beside a run in which it is one of many. -/
structure Solo (σ : Type) where
  play : Play
  share : Share
  pairing : Pairing
  /-- The state of the play in the run of many. -/
  joint : PlayState
  /-- The state of the play in its own run. -/
  alone : PlayState
  run : RunState σ

namespace Solo

open Step RunState Runner

variable {setup : Setup σ} {s u v : RunState σ}

/-- The run of many is in a state that mirrors that of the play's own run. -/
structure Beside (setup : Setup σ) (s : RunState σ) (x : Solo σ) : Prop where
  determined : ∀ t ∈ x.play.declared, Determined setup t
  world : (anywhere setup).Mirrors x.pairing s.world x.run.world
  root : Scope.Mirrors x.pairing setup.root setup.root
  states : x.joint.Mirrors x.play x.play x.pairing x.alone

/-- The second play leaves the table of the first alone. -/
def Avoids (x y : Solo σ) : Prop := y.pairing.reserved x.joint.table

/-- Tables and futures that are added by other plays do not matter. -/
theorem Beside.later {x : Solo σ} (h : x.Beside setup s) {n table : Nat}
    (hv : Leaves n table s v) (hn : s.world.tables.size ≤ n)
    (htable : ∀ j, ¬ x.pairing.tables table j) : x.Beside setup v where
  determined := h.determined
  world := by
    refine h.world.left hv.settled trivial hv.spares.size_le (fun {i j} hij => ?_) hv.spares.futures
    have hi : i < n := Nat.lt_of_lt_of_le (h.world.lt hij).1 hn
    refine hv.spares.tables i hi ?_
    rintro rfl
    exact htable j hij
  root := h.root
  states := h.states

/-- The own run has come to the end of the play's tasks. -/
structure Played (setup : Setup σ) (start : RunState σ) (x : Solo σ) : Prop where
  run : (runPlay setup x.play).run.run (start.push .startTasks) = (.ok x.alone, x.run)
  tasks : (start.push .startTasks).Logs x.share.tasks x.run

variable {world : World σ}

/-- Before a play starts, the tables of the plays before it are reserved. -/
theorem mirrors_start (hroot : setup.root.Grounded world) (hworld : world.Settled)
    (hkept : world.Kept s.world) (hsettled : s.world.Settled) :
    (anywhere setup).Mirrors ((Pairing.outside setup.root world.futures.size).reserve
      world.tables.size s.world.tables.size) s.world (RunState.initial world).world := by
  have hboth : (anywhere setup).Mirrors (.outside setup.root world.futures.size) s.world
      (RunState.initial world).world :=
    hkept.mirrors hroot (.of_eq rfl rfl) hsettled (hworld.of_futures rfl) trivial
  apply hboth.reserve
  rintro i _ ⟨rfl, hi⟩
  exact (hroot i hi).1

/-- The tasks of one play, in the run of many and in its own. -/
theorem exists_played (hroot : setup.root.Grounded world) (hworld : world.Settled) {p : Play}
    (hdetermined : ∀ t ∈ p.declared, Determined setup t) (hkept : world.Kept s.world)
    (hsettled : s.world.Settled) {st : PlayState}
    (hrun : (runPlay setup p).run.run s = (.ok st, u)) :
    ∃ x : Solo σ, x.play = p ∧ x.joint = st ∧ x.Beside setup u ∧
      x.Played setup (RunState.initial world) ∧ s.Logs x.share.tasks u ∧
      ∀ i, world.tables.size ≤ i → i < s.world.tables.size → x.pairing.reserved i := by
  let start : RunState σ := (RunState.initial world).push .startTasks
  let π := (Pairing.outside setup.root world.futures.size).reserve world.tables.size
    s.world.tables.size
  have hscope : Scope.Mirrors π setup.root setup.root :=
    (Scope.mirrors_outside setup.root _).mono (Pairing.le_reserve _ _ _)
  have hstart : (anywhere setup).Mirrors π s.world start.world :=
    mirrors_start hroot hworld hkept hsettled
  obtain ⟨ρ, P, hρ, hmirrors, hlogs, hlogs', houtcomes⟩ :=
    Comparison.runPlay_meets (c := anywhere setup) (shares_anywhere hdetermined) rfl
      (fun t ht => List.mem_append_left _ (List.mem_append_left _ ht)) rfl hscope hstart
      (fair_anywhere setup _)
  rcases hrun' : (runPlay setup p).run.run start with ⟨o, u'⟩
  have hrun' : (runPlay (anywhere setup).setup p).run.run start = (o, u') := hrun'
  have hrun : (runPlay (anywhere setup).setup p).run.run s = (.ok st, u) := hrun
  rw [hrun, hrun'] at hmirrors houtcomes
  rw [hrun] at hlogs
  rw [hrun'] at hlogs'
  cases houtcomes with
  | @ok _ st' hst =>
    let x : Solo σ :=
      { play := p, share := { tasks := P }, pairing := ρ, joint := st, alone := st', run := u' }
    exact ⟨x, rfl, rfl, ⟨hdetermined, hmirrors, hscope.mono hρ, hst⟩, ⟨hrun', hlogs'⟩, hlogs,
      fun i hn hi => hρ.2.2 (.inr ⟨hn, hi⟩)⟩

/-- The phase of the tasks, with the own runs of all plays beside it. -/
theorem exists_each_played (hroot : setup.root.Grounded world) (hworld : world.Settled)
    {plays : List Play} (hdetermined : ∀ p ∈ plays, ∀ t ∈ p.declared, Determined setup t)
    (hkept : world.Kept s.world) (hsettled : s.world.Settled) {sts : List PlayState}
    (hrun : (plays.mapM (runPlay setup)).run.run s = (.ok sts, v)) :
    ∃ xs : List (Solo σ), xs.map play = plays ∧ xs.map joint = sts ∧
      (∀ x ∈ xs, x.Beside setup v ∧ x.Played setup (RunState.initial world) ∧
        ∀ i, world.tables.size ≤ i → i < s.world.tables.size → x.pairing.reserved i) ∧
      xs.Pairwise Avoids ∧ LogsEach (xs.map (·.share.tasks)) s v := by
  induction plays generalizing s sts with
  | nil =>
    cases hrun
    exact ⟨[], rfl, rfl, by simp, .nil, .nil _⟩
  | cons p plays ih =>
    obtain ⟨hp, hplays⟩ := List.forall_mem_cons.mp hdetermined
    rw [List.mapM_cons] at hrun
    obtain ⟨st, u, hfirst, hsecond⟩ := run_bind_ok hrun
    obtain ⟨rest, w, hrest, hend⟩ := run_bind_ok hsecond
    cases hend
    obtain ⟨hleaves, htable⟩ := (runPlay_leaves (n := s.world.tables.size) p hsettled
      (Nat.le_refl _)).of_run hfirst
    obtain ⟨x, rfl, rfl, hbeside, hplayed, hlogs, hreserved⟩ :=
      exists_played hroot hworld hp hkept hsettled hfirst
    have hkept' : world.Kept u.world := hkept.trans hleaves.spares
    obtain ⟨xs, rfl, rfl, hxs, hapart, hmore⟩ := ih hplays hkept' hleaves.settled hrest
    have hlater : Keeps u.world.tables.size u v :=
      ((plays_keep _ hleaves.settled (Nat.le_refl _)).of_run hrest).1
    have hown : x.joint.table = s.world.tables.size := htable _ rfl
    have hlt : x.joint.table < u.world.tables.size := (hbeside.world.lt hbeside.states.table).1
    refine ⟨x :: xs, rfl, rfl, ?_, List.pairwise_cons.mpr ⟨fun y hy => ?_, hapart⟩,
      .cons hlogs hmore⟩
    · refine List.forall_mem_cons.mpr ⟨⟨?_, hplayed, hreserved⟩, fun y hy => ?_⟩
      · exact hbeside.later hlater (Nat.le_refl _) fun j hj =>
          absurd (hbeside.world.lt hj).1 (Nat.lt_irrefl _)
      · obtain ⟨hy, hplayed', hreserved'⟩ := hxs y hy
        exact ⟨hy, hplayed', fun i hn hi =>
          hreserved' i hn (Nat.lt_of_lt_of_le hi hleaves.spares.size_le)⟩
    · exact (hxs y hy).2.2 _ (hown ▸ hkept.size_le) hlt

/-- The same play later on. -/
structure Continues (x y : Solo σ) : Prop where
  play : y.play = x.play
  tasks : y.share.tasks = x.share.tasks
  pairing : x.pairing ≤ y.pairing
  table : y.joint.table = x.joint.table

/-- The own run has come to the handlers. -/
structure Drained (setup : Setup σ) (start : RunState σ) (x y : Solo σ) : Prop
    extends Continues x y where
  played : x.Played setup start
  run : (drainPlay setup x.alone).run.run (x.run.push .finishTasks) = (.ok y.alone, y.run)
  drained : (x.run.push .finishTasks).Logs y.share.drained y.run

theorem Beside.of_world {x : Solo σ} (h : x.Beside setup s) (hv : v.world = s.world) :
    x.Beside setup v := ⟨h.determined, hv ▸ h.world, h.root, h.states⟩

/-- The deferred tasks of one play, in the run of many and in its own. -/
theorem exists_drained {x : Solo σ} (hbeside : x.Beside setup s) {start : RunState σ}
    (hplayed : x.Played setup start) {st : PlayState}
    (hrun : (drainPlay setup x.joint).run.run s = (.ok st, u)) :
    ∃ y : Solo σ, y.joint = st ∧ y.Beside setup u ∧ y.joint.deferred = [] ∧
      x.Drained setup start y ∧ s.Logs y.share.drained u := by
  have hfinish : (anywhere setup).Mirrors x.pairing s.world (x.run.push .finishTasks).world :=
    hbeside.world
  obtain ⟨ρ, P, hρ, hmirrors, hlogs, hlogs', houtcomes⟩ :=
    Comparison.drainPlay_meets (c := anywhere setup) rfl hfinish hbeside.states
  have hrun : (drainPlay (anywhere setup).setup x.joint).run.run s = (.ok st, u) := hrun
  rcases hrun' : (drainPlay (anywhere setup).setup x.alone).run.run (x.run.push .finishTasks)
    with ⟨o, u'⟩
  rw [hrun, hrun'] at hmirrors houtcomes
  rw [hrun] at hlogs
  rw [hrun'] at hlogs'
  obtain ⟨-, -, htable⟩ := (drainPlay_leaves x.joint hbeside.world.settled).of_run hrun
  cases houtcomes with
  | @ok _ st' hst =>
    refine ⟨{ x with
      share := { tasks := x.share.tasks, drained := P }
      pairing := ρ, joint := st, alone := st', run := u' }, rfl, ?_, hst.2, ?_, hlogs⟩
    · exact ⟨hbeside.determined, hmirrors, hbeside.root.mono hρ, hst.1⟩
    · exact ⟨⟨rfl, rfl, hρ, htable st rfl⟩, hplayed, hrun', hlogs'⟩

/-- The phase in which deferred tasks are awaited. -/
theorem exists_each_drained {start : RunState σ} {xs : List (Solo σ)}
    (hxs : ∀ x ∈ xs, x.Beside setup s ∧ x.Played setup start) {sts : List PlayState}
    (hsettled : s.world.Settled)
    (hrun : ((xs.map joint).mapM (drainPlay setup)).run.run s = (.ok sts, v)) :
    ∃ ys : List (Solo σ), List.Forall₂ (Drained setup start) xs ys ∧ ys.map joint = sts ∧
      (∀ y ∈ ys, y.Beside setup v ∧ y.joint.deferred = []) ∧
      LogsEach (ys.map (·.share.drained)) s v ∧ v.world = s.world := by
  induction xs generalizing s sts with
  | nil =>
    cases hrun
    exact ⟨[], .nil, rfl, by simp, .nil _, rfl⟩
  | cons x xs ih =>
    obtain ⟨⟨hbeside, hplayed⟩, hxs⟩ := List.forall_mem_cons.mp hxs
    rw [List.map_cons, List.mapM_cons] at hrun
    obtain ⟨st, u, hfirst, hsecond⟩ := run_bind_ok hrun
    obtain ⟨rest, w, hrest, hend⟩ := run_bind_ok hsecond
    cases hend
    obtain ⟨-, hworld, -⟩ := (drainPlay_leaves x.joint hsettled).of_run hfirst
    obtain ⟨y, rfl, hy, hempty, hdrained, hlogs⟩ := exists_drained hbeside hplayed hfirst
    obtain ⟨ys, hall, rfl, hys, hmore, hworld'⟩ :=
      ih (fun x hx => ⟨(hxs x hx).1.of_world hworld, (hxs x hx).2⟩) (hworld ▸ hsettled) hrest
    exact ⟨y :: ys, .cons hdrained hall, rfl,
      List.forall_mem_cons.mpr ⟨⟨hy.of_world hworld', hempty⟩, hys⟩, .cons hlogs hmore,
      hworld'.trans hworld⟩

/-- The share of the play is that of its own run. -/
structure Completes (setup : Setup σ) (world : World σ) (y : Solo σ) (share : Share) : Prop where
  tasks : share.tasks = y.share.tasks
  drained : share.drained = y.share.drained
  consists : (Runner.run setup { plays := [y.play] } world).Consists [share]

/-- The handlers of one play, in the run of many and in its own. -/
theorem exists_completed {x y : Solo σ} (hdrained : x.Drained setup (RunState.initial world) y)
    (hbeside : y.Beside setup s) (hempty : y.joint.deferred = []) {started b : Bool}
    (hrun : (runHandlers setup started y.joint).run.run s = (.ok b, u)) :
    ∃ share, y.Completes setup world share ∧ b = (started || share.handled) ∧
      (s.announceIf share.handled started).Logs share.handlers u := by
  obtain ⟨ran, ρ, P, hρ, -, hlogs, hlogs', houtcomes, hquiet⟩ :=
    Comparison.runHandlers_meets (c := anywhere setup)
      (shares_anywhere hbeside.determined) rfl
      (fun t ht => List.mem_append_left _ (List.mem_append_right _ ht)) started false hbeside.root
      hbeside.world hbeside.states hempty (fair_anywhere setup _)
  have hrun : (runHandlers (anywhere setup).setup started y.joint).run.run s = (.ok b, u) := hrun
  rcases hrun' : (runHandlers (anywhere setup).setup false y.alone).run.run y.run with ⟨o, u'⟩
  rw [hrun, hrun'] at houtcomes
  rw [hrun] at hlogs
  rw [hrun'] at hlogs'
  cases houtcomes
  let share : Share :=
    { tasks := y.share.tasks, drained := y.share.drained, handlers := P, handled := ran,
      quiet := hquiet }
  have htasks : LogsEach [x.share.tasks] ((RunState.initial world).push .startTasks) x.run :=
    .cons hdrained.played.tasks (.nil _)
  have hplay := run_mapM_singleton hdrained.played.run
  rw [← hdrained.play] at hplay
  rw [← hdrained.tasks] at htasks
  have hconsists : (Runner.run setup { plays := [y.play] } world).Consists [share] := by
    have hhandlers : (runHandlers setup false y.alone).run.run y.run = (.ok ran, u') := hrun'
    refine consists_of_phases hplay htasks (run_mapM_singleton hdrained.run)
      (.cons hdrained.drained (.nil _)) (v := u') ?_ ?_
    · rw [List.foldlM_cons, run_bind_of_ok hhandlers]
      cases ran <;> rfl
    · have hany : [share].any (·.handled) = ran := Bool.or_false ran
      rw [hany]
      exact .cons hlogs' (.nil _)
  exact ⟨share, ⟨rfl, rfl, hconsists⟩, rfl, hlogs⟩

/-- The phase of the handlers. The handlers of a play write to no table that corresponds to
one of a play after it. -/
theorem exists_each_completed {xs ys : List (Solo σ)}
    (hdrained : List.Forall₂ (Drained setup (RunState.initial world)) xs ys)
    (hys : ∀ y ∈ ys, y.Beside setup s ∧ y.joint.deferred = []) (hapart : ys.Pairwise Avoids)
    (hsettled : s.world.Settled) {started b : Bool}
    (hrun : ((ys.map joint).foldlM (runHandlers setup) started).run.run s = (.ok b, v)) :
    ∃ shares, List.Forall₂ (Completes setup world) ys shares ∧
      b = (started || shares.any (·.handled)) ∧
      LogsEach (shares.map (·.handlers)) (s.announceIf (shares.any (·.handled)) started) v := by
  induction hdrained generalizing s started with
  | nil =>
    cases hrun
    exact ⟨[], .nil, (Bool.or_false _).symm, .nil _⟩
  | @cons x y xs ys hxy _ ih =>
    obtain ⟨⟨hbeside, hempty⟩, hys⟩ := List.forall_mem_cons.mp hys
    obtain ⟨havoid, hapart⟩ := List.pairwise_cons.mp hapart
    rw [List.map_cons, List.foldlM_cons] at hrun
    obtain ⟨b', u, hfirst, hrest⟩ := run_bind_ok hrun
    have hleaves : Leaves s.world.tables.size y.joint.table s u :=
      (runHandlers_leaves started y.joint hsettled (Nat.le_refl _)).of_run hfirst
    obtain ⟨share, hcompletes, rfl, hlogs⟩ := exists_completed hxy hbeside hempty hfirst
    -- The handlers of this play may write to its own table, which no later play sees.
    have hlater : ∀ z ∈ ys, z.Beside setup u ∧ z.joint.deferred = [] := by
      intro z hz
      obtain ⟨hz', hempty'⟩ := hys z hz
      exact ⟨hz'.later hleaves (Nat.le_refl _) (hz'.world.reserved (havoid z hz)).2, hempty'⟩
    obtain ⟨shares, hall, rfl, hmore⟩ := ih hlater hapart hleaves.settled hrest
    refine ⟨share :: shares, .cons hcompletes hall, ?_, .announced hlogs share.quiet hmore⟩
    rw [List.any_cons, Bool.or_assoc]

theorem pairwise_avoids {start : RunState σ} {xs ys : List (Solo σ)}
    (h : List.Forall₂ (Drained setup start) xs ys) (hxs : xs.Pairwise Avoids) :
    ys.Pairwise Avoids := by
  induction h with
  | nil => exact .nil
  | @cons x y xs ys hxy hrest ih =>
    obtain ⟨havoid, hxs⟩ := List.pairwise_cons.mp hxs
    refine List.pairwise_cons.mpr ⟨?_, ih hxs⟩
    have hboth : List.Forall₂ (fun a b => x.Avoids a ∧ a.Drained setup start b) xs ys :=
      (List.forall₂_and_left _ _).mpr ⟨havoid, hrest⟩
    refine forall_mem_right (hboth.imp fun a b hab => ?_)
    have hreserved : b.pairing.reserved x.joint.table := hab.2.pairing.2.2 hab.1
    rwa [← hxy.table] at hreserved

end Solo

namespace Runner

open RunState Solo

/-- Another play has a handler of the name that the first play notifies, and defers a task
under the name that the first play registers. -/
def recitals : Playbook where
  plays := recital.plays ++ [{
    name := "q"
    tasks := [{ name := "v", command := "debug", vars := [("var", .string "who")],
                future := some "seen" }]
    handlers := [{ name := "h", command := "debug", vars := [("msg", .string "never")] }] }]

end Runner

end PlaybookRunner
