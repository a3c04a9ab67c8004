import PlaybookRunner.Proofs.Deferral
import PlaybookRunner.Proofs.Handlers
import PlaybookRunner.Proofs.Isolation

/-!
# Runs with a deferred task

When the deferred tasks of a play have been awaited, exactly those handlers have been
notified that were due before. So a run with the deferred task comes to its handlers with
the notifications of the run without, and from there on both report the same.
-/

namespace PlaybookRunner

variable {σ : Type}

open Transcript

/-- The events from the announcement of the handlers on: none, if no handler runs. -/
def Transcript.handling (L : List Event) : List Event := L.dropWhile fun e => !e.startsHandlers

theorem Transcript.handling_append {A : List Event} (hA : ∀ e ∈ A, e.startsHandlers = false)
    (B : List Event) : handling (A ++ B) = handling B :=
  List.dropWhile_append_of_pos (by simpa using hA)

/-- The deferred tasks of the play have been awaited. -/
structure PlayState.Awaited (w : World σ) (st u : PlayState) : Prop where
  play : u.play = st.play
  table : u.table = st.table
  deferred : u.deferred = []
  notified : ∀ name, name ∈ u.notified ↔ st.Due w name

namespace Runner

open Step RunState

variable {setup : Setup σ} {s v : RunState σ}

/-- Deferred tasks notify what they owe when they are awaited. -/
theorem awaits_notify (hsettled : s.world.Settled) {ds : List Deferred}
    (hrun : (ds.forM (await setup)).run.run s = (.ok (), v)) :
    s.Rests v ∧ ∃ P : Part, s.Gains P [] v ∧
      ∀ name, name ∈ P.notified ↔ ∃ d ∈ ds, d.WillNotify s.world name := by
  induction ds generalizing s with
  | nil =>
    cases hrun
    exact ⟨.refl _, {}, .refl _, by simp⟩
  | cons d ds ih =>
    change (await setup d >>= fun _ => ds.forM (await setup)).run.run s = _ at hrun
    obtain ⟨answer, hanswer⟩ := hsettled.exists_answer d.future
    cases answer with
    | error e =>
      rw [run_bind_of_error (run_await_error hanswer)] at hrun
      cases hrun
    | ok result =>
      rw [run_bind_of_ok (run_await_ok hanswer)] at hrun
      obtain ⟨hrests, P, hgains, hnotified⟩ := ih (s := s.afterAwait d.task result) hsettled hrun
      have hfirst (name : String) :
          name ∈ (Part.await d.task result).notified ↔ d.WillNotify s.world name := by
        simp [Part.await, Deferred.WillNotify, hanswer]
      refine ⟨(rests_afterAwait d.task result s).trans hrests, .await d.task result ++ P,
        (gains_afterAwait d.task result s).trans hgains, fun name => ?_⟩
      rw [Part.notified_append, List.mem_append, hfirst, hnotified]
      simp only [List.mem_cons, exists_eq_or_imp]
      exact Iff.rfl

theorem drainPlay_ok (hsettled : s.world.Settled) {st u : PlayState}
    (hrun : (drainPlay setup st).run.run s = (.ok u, v)) :
    v.world = s.world ∧ (∃ P : Part, s.Logs P v) ∧ st.Awaited s.world u := by
  rcases hdrain : (drain setup).run.run (s.resumed st) with ⟨o, w⟩
  rw [run_drainPlay hdrain] at hrun
  cases o with
  | error e => cases hrun
  | ok _ =>
    cases hrun
    have hawaits : (st.deferred.forM (await setup)).run.run (s.resumed st).cleared = (.ok (), v) :=
      hdrain
    obtain ⟨hrests, P, hgains, hnotified⟩ :=
      awaits_notify (s := (s.resumed st).cleared) hsettled hawaits
    refine ⟨hrests.world, ⟨P, hgains.events, hgains.recorded, hgains.futures⟩, hrests.play,
      hrests.table, hrests.deferred, fun name => ?_⟩
    rw [hgains.notified, hnotified]
    exact Iff.rfl

theorem drains_ok (hsettled : s.world.Settled) {sts us : List PlayState}
    (hrun : (sts.mapM (drainPlay setup)).run.run s = (.ok us, v)) :
    v.world = s.world ∧ (∃ P : Part, s.Logs P v) ∧
      List.Forall₂ (PlayState.Awaited s.world) sts us := by
  induction sts generalizing s us with
  | nil =>
    cases hrun
    exact ⟨rfl, ⟨{}, .refl _⟩, .nil⟩
  | cons st sts ih =>
    rw [List.mapM_cons] at hrun
    obtain ⟨u, w, hfirst, hsecond⟩ := run_bind_ok hrun
    obtain ⟨us, w', hrest, hend⟩ := run_bind_ok hsecond
    cases hend
    obtain ⟨hworld, ⟨P, hP⟩, hawaited⟩ := drainPlay_ok hsettled hfirst
    obtain ⟨hworld', ⟨Q, hQ⟩, hrest⟩ := ih (hworld ▸ hsettled) hrest
    exact ⟨hworld'.trans hworld, ⟨P ++ Q, hP.trans hQ⟩, .cons hawaited (hworld ▸ hrest)⟩

/-- The phase of the tasks reports nothing but tasks. -/
theorem plays_report {plays : List Play} {sts : List PlayState}
    (hrun : (plays.mapM (runPlay setup)).run.run s = (.ok sts, v)) :
    ∃ L, v.events.toList = s.events.toList ++ L ∧ ∀ e ∈ L, e.OfTask := by
  obtain ⟨logs, L, hlogs, hL, hreaches, -⟩ :=
    (tasks_end (X := True) plays s fun _ _ _ => trivial).of_run hrun
  have hsound : ∀ log ∈ logs, log.Sound := forall_mem_right (hlogs.imp fun _ _ h => h.2.1)
  obtain rfl : L = logs.flatMap PlayLog.tasks := hreaches.all sts rfl
  refine ⟨_, hL.events, fun e he => ?_⟩
  obtain ⟨log, hlog, he⟩ := List.mem_flatMap.mp he
  exact (hsound log hlog).tasks.ofTask e he

/-- What a run that ends well reports from its handlers on. -/
theorem handling_of_phases {book : Playbook} {world : World σ} {sts us : List PlayState}
    {u u' w : RunState σ} {parts : List Part} {ran : Bool} (hworld : u.world.Settled)
    (hrun : (runPhases setup book.plays).run.run (RunState.initial world) = (.ok (), v))
    (hplays : (book.plays.mapM (runPlay setup)).run.run
      ((RunState.initial world).push .startTasks) = (.ok sts, u))
    (hdrains : (sts.mapM (drainPlay setup)).run.run (u.push .finishTasks) = (.ok us, u'))
    (hlogs : LogsEach parts (u'.announceIf ran false) w)
    (hquiet : ran = false → parts.flatMap (·.events) = [])
    (hend : v = (if ran then w.push .finishHandlers else w).push .finishAll) :
    handling (run setup book world).events =
      if ran then .startHandlers :: (parts.flatMap (·.events) ++
        [.finishHandlers, .finishAll, .ended none]) else [] := by
  obtain ⟨L, hL, htasks⟩ := plays_report hplays
  obtain ⟨-, ⟨P, hP⟩, -⟩ := drains_ok (s := u.push .finishTasks) hworld hdrains
  have hevents := hlogs.events
  have hdrained := hP.events
  change u'.events.toList = (u.events.push .finishTasks).toList ++ P.events at hdrained
  change u.events.toList = [.startTasks] ++ L at hL
  rw [Array.toList_push, hL] at hdrained
  rw [events_announceIf, hdrained, Share.announcement] at hevents
  have hbefore : ∀ e ∈ .startTasks :: (L ++ .finishTasks :: P.events),
      e.startsHandlers = false := by
    intro e he
    simp only [List.mem_cons, List.mem_append] at he
    rcases he with rfl | he | rfl | he
    · rfl
    · exact (htasks e he).startsHandlers
    · rfl
    · exact (P.ofTasks e he).startsHandlers
  rw [run_eq, hrun, hend]
  cases ran with
  | false =>
    rw [hquiet rfl] at hevents
    change handling ((w.events.push .finishAll).toList ++ [.ended none]) = []
    rw [Array.toList_push, hevents]
    have hrest : handling [.finishAll, .ended none] = [] := rfl
    simpa using (handling_append hbefore [.finishAll, .ended none]).trans hrest
  | true =>
    change handling (((w.events.push .finishHandlers).push .finishAll).toList ++ [.ended none]) = _
    rw [Array.toList_push, Array.toList_push, hevents]
    have hrest (L : List Event) : handling (.startHandlers :: L) = .startHandlers :: L := rfl
    simpa using (handling_append hbefore (.startHandlers :: (parts.flatMap (·.events) ++
      [.finishHandlers, .finishAll, .ended none]))).trans (hrest _)

end Runner

namespace Comparison

open Step RunState Runner

variable {c : Comparison σ} {p q : Play} {f : String} {t : Task} {π ρ : Pairing}
  {s s' v v' : RunState σ} {w w' : World σ} {st st' : PlayState}

theorem loose_runPlayTask (h : c.Deferral p q f t) (hhosts : c.hosts = Eq) {a b : Task}
    (hab : Task.Defers f t a b) (ha : a ∈ p.declared)
    (hroot : Scope.Mirrors π c.setup.root c.setup.root) :
    c.Loose p q t π (runPlayTask c.setup a) (runPlayTask c.setup b) := by
  refine Loose.getThen (fun table => goes_runPlayTask c.setup a)
    (fun table => goes_runPlayTask c.setup b) fun hle htogether => ?_
  exact (loose_runTask h hhosts c.setup.callDepth).loose hab ha
    ((hroot.mono hle).table htogether.table)

/-- The states of a play without and with the deferral, in which the same handlers are due. -/
structure Due (c : Comparison σ) (f : String) (t : Task) (π : Pairing) (w w' : World σ)
    (st st' : PlayState) : Prop where
  deferral : c.Deferral st.play st'.play f t
  table : π.tables st.table st'.table
  backed : st.Backed w
  backed' : st'.Backed w'
  due : ∀ name, st.Due w name ↔ st'.Due w' name

theorem Due.later {u u' : World σ} (h : c.Due f t π w w' st st') (hle : π ≤ ρ)
    (hu : w.futures.toList <+: u.futures.toList) (hu' : w'.futures.toList <+: u'.futures.toList) :
    c.Due f t ρ u u' st st' where
  deferral := h.deferral
  table := hle.1 h.table
  backed := h.backed.later hu
  backed' := h.backed'.later hu'
  due name := by rw [h.backed.due_later hu, h.backed'.due_later hu', h.due]

/-- The states of a play in which the same handlers have been notified. -/
structure Notified (c : Comparison σ) (f : String) (t : Task) (π : Pairing)
    (st st' : PlayState) : Prop where
  deferral : c.Deferral st.play st'.play f t
  states : st.Mirrors st.play st'.play π st'
  drained : st.deferred = []

theorem Notified.mono (h : c.Notified f t π st st') (hle : π ≤ ρ) : c.Notified f t ρ st st' :=
  ⟨h.deferral, h.states.mono hle, h.drained⟩

/-- What was due in both runs has been notified in both. -/
theorem Due.notified (h : c.Due f t π w w' st st') {u u' : PlayState} (hu : st.Awaited w u)
    (hu' : st'.Awaited w' u') : c.Notified f t π u u' where
  deferral := by
    rw [hu.play, hu'.play]
    exact h.deferral
  states := by
    refine ⟨rfl, rfl, ?_, fun name => ?_, ?_⟩
    · rw [hu.table, hu'.table]
      exact h.table
    · rw [hu.notified, hu'.notified, h.due]
    · rw [hu.deferred, hu'.deferred]
      exact .nil
  drained := hu.deferred

theorem notified_of_due {sts sts' us us' : List PlayState}
    (h : List.Forall₂ (c.Due f t π w w') sts sts') (hus : List.Forall₂ (PlayState.Awaited w) sts us)
    (hus' : List.Forall₂ (PlayState.Awaited w') sts' us') :
    List.Forall₂ (c.Notified f t π) us us' := by
  induction h generalizing us us' with
  | nil =>
    cases hus
    cases hus'
    exact .nil
  | cons hst _ ih =>
    rcases hus with _ | ⟨hu, hus⟩
    rcases hus' with _ | ⟨hu', hus'⟩
    exact .cons (hst.notified hu hu') (ih hus hus')

section

variable (hhosts : c.hosts = Eq)

include hhosts

/-- After the tasks of a play the same handlers are due in both runs. -/
theorem runPlay_due (h : c.Deferral p q f t) (hroot : Scope.Mirrors π c.setup.root c.setup.root)
    (hworld : c.Mirrors π s.world s'.world) (hrun : (runPlay c.setup p).run.run s = (.ok st, v))
    (hrun' : (runPlay c.setup q).run.run s' = (.ok st', v')) (hfair : c.Fair v.events.toList) :
    ∃ ρ, π ≤ ρ ∧ c.Mirrors ρ v.world v'.world ∧ c.Due f t ρ v.world v'.world st st' := by
  let ρ := π.addTables s.world.tables.size s'.world.tables.size
  have hle : π ≤ ρ := π.le_addTables _ _
  have hentered : c.Level p q ρ (s.entered p) (s'.entered q) := by
    refine ⟨⟨?_, .inr ⟨rfl, rfl⟩, rfl, rfl⟩, ?_, ?_, fun name => ?_⟩
    · unfold entered
      rw [h.vars]
      exact hworld.newTables p.vars
    · simp [RunState.Backed, PlayState.Backed, entered]
    · simp [RunState.Backed, PlayState.Backed, entered]
    · simp [RunState.Due, PlayState.Due, entered]
  have htasks : ∀ a ∈ p.tasks, a ∈ p.declared := fun a ha =>
    List.mem_append_left _ (List.mem_append_left _ ha)
  have hboth : List.Forall₂ (fun a b => a ∈ p.declared ∧ Task.Defers f t a b) p.tasks q.tasks :=
    (List.forall₂_and_left _ _).mpr ⟨htasks, h.tasks⟩
  have hloose : c.Loose p q t ρ (anyChanged (runPlayTask c.setup) p.tasks)
      (anyChanged (runPlayTask c.setup) q.tasks) :=
    .anyChanged (hboth.imp fun a b hab => loose_runPlayTask h hhosts hab.2 hab.1 (hroot.mono hle))
  rcases hfirst : (anyChanged (runPlayTask c.setup) p.tasks).run.run (s.entered p) with ⟨o, u⟩
  rcases hfirst' : (anyChanged (runPlayTask c.setup) q.tasks).run.run (s'.entered q) with ⟨o', u'⟩
  rw [run_runPlay hfirst] at hrun
  rw [run_runPlay hfirst'] at hrun'
  cases o with
  | error e => cases hrun
  | ok changed =>
    cases o' with
    | error e => cases hrun'
    | ok changed' =>
      cases hrun
      cases hrun'
      obtain ⟨τ, hτ, hlevel, -⟩ :=
        hloose.meets (Pairing.le_refl ρ) hentered hfirst hfirst' hfair
      refine ⟨τ, Pairing.le_trans hle hτ, hlevel.world, ?_, hlevel.table, hlevel.backed,
        hlevel.backed', hlevel.due⟩
      rw [hlevel.left, hlevel.right]
      exact h

/-- After the phase of the tasks the same handlers of all plays are due. -/
theorem plays_due {plays plays' : List Play}
    (h : List.Forall₂ (fun p q => c.Deferral p q f t) plays plays')
    (hroot : Scope.Mirrors π c.setup.root c.setup.root) (hworld : c.Mirrors π s.world s'.world)
    {sts sts' : List PlayState} (hrun : (plays.mapM (runPlay c.setup)).run.run s = (.ok sts, v))
    (hrun' : (plays'.mapM (runPlay c.setup)).run.run s' = (.ok sts', v'))
    (hfair : c.Fair v.events.toList) :
    ∃ ρ, π ≤ ρ ∧ c.Mirrors ρ v.world v'.world ∧
      List.Forall₂ (c.Due f t ρ v.world v'.world) sts sts' := by
  induction h generalizing π s s' sts sts' with
  | nil =>
    cases hrun
    cases hrun'
    exact ⟨π, Pairing.le_refl π, hworld, .nil⟩
  | @cons p q plays plays' hpq _ ih =>
    rw [List.mapM_cons] at hrun hrun'
    obtain ⟨st, u, hfirst, hsecond⟩ := run_bind_ok hrun
    obtain ⟨sts, w, hrest, hend⟩ := run_bind_ok hsecond
    cases hend
    obtain ⟨st', u', hfirst', hsecond'⟩ := run_bind_ok hrun'
    obtain ⟨sts', w', hrest', hend'⟩ := run_bind_ok hsecond'
    cases hend'
    have hu : u.world.Settled :=
      ((runPlay_leaves (n := 0) p hworld.settled (Nat.zero_le _)).of_run hfirst).1.settled
    have hlater : Keeps 0 u v := ((plays_keep plays hu (Nat.zero_le _)).of_run hrest).1
    obtain ⟨ρ, hρ, hnext, hst⟩ :=
      runPlay_due hhosts hpq hroot hworld hfirst hfirst' (hfair.before hlater.events)
    have hlater' : Keeps 0 u' v' :=
      ((plays_keep plays' hnext.settled' (Nat.zero_le _)).of_run hrest').1
    obtain ⟨τ, hτ, hend, hsts⟩ := ih (hroot.mono hρ) hnext hrest hrest'
    -- The plays after this one only add futures, so what is due for it stays the same.
    have hkept : c.Due f t τ v.world v'.world st st' :=
      hst.later hτ hlater.spares.futures hlater'.spares.futures
    exact ⟨τ, Pairing.le_trans hρ hτ, hend, .cons hkept hsts⟩

/-- The phase of the handlers goes alike in both runs. -/
theorem handlers_alike {sts sts' : List PlayState} (h : List.Forall₂ (c.Notified f t π) sts sts')
    (hroot : Scope.Mirrors π c.setup.root c.setup.root) (hworld : c.Mirrors π s.world s'.world)
    {started b b' : Bool}
    (hrun : (sts.foldlM (runHandlers c.setup) started).run.run s = (.ok b, v))
    (hrun' : (sts'.foldlM (runHandlers c.setup) started).run.run s' = (.ok b', v'))
    (hfair : c.Fair v.events.toList) :
    ∃ ran parts, b = (started || ran) ∧ b' = (started || ran) ∧
      LogsEach parts (s.announceIf ran started) v ∧ LogsEach parts (s'.announceIf ran started) v' ∧
      (ran = false → parts.flatMap (·.events) = []) := by
  induction sts generalizing sts' π s s' started with
  | nil =>
    cases h
    cases hrun
    cases hrun'
    exact ⟨false, [], (Bool.or_false _).symm, (Bool.or_false _).symm, .nil _, .nil _, fun _ => rfl⟩
  | cons st sts ih =>
    rcases h with _ | ⟨hst, hsts⟩
    rw [List.foldlM_cons] at hrun hrun'
    obtain ⟨d, u, hfirst, hrest⟩ := run_bind_ok hrun
    obtain ⟨d', u', hfirst', hrest'⟩ := run_bind_ok hrun'
    have hleaves : Leaves 0 st.table s u :=
      (runHandlers_leaves started st hworld.settled (Nat.zero_le _)).of_run hfirst
    have hlater : Keeps 0 u v :=
      (handlers_keep sts (fun _ _ => Nat.zero_le _) d hleaves.settled (Nat.zero_le _)).of_run hrest
    have hdeclared : ∀ a ∈ st.play.handlers, a ∈ st.play.declared ∧ ¬ st.play.Encloses a t :=
      fun a ha => ⟨List.mem_append_left _ (List.mem_append_right _ ha), hst.deferral.outside a ha⟩
    have hfirstFair : c.Fair ((runHandlers c.setup started st).run.run s).2.events.toList := by
      rw [hfirst]
      exact hfair.before hlater.events
    obtain ⟨ran, ρ, P, hρ, hnext, hlogs, hlogs', houtcomes, hquiet⟩ :=
      runHandlers_meets (hst.deferral.shares hhosts) hst.deferral.handlers hdeclared started started
        hroot hworld hst.states hst.drained hfirstFair
    rw [hfirst, hfirst'] at hnext houtcomes
    rw [hfirst] at hlogs
    rw [hfirst'] at hlogs'
    cases houtcomes
    obtain ⟨more, parts, rfl, rfl, hmore, hmore', hquiet'⟩ :=
      ih (hsts.imp fun _ _ h => h.mono hρ) (hroot.mono hρ) hnext hrest hrest'
    refine ⟨ran || more, P :: parts, Bool.or_assoc _ _ _, Bool.or_assoc _ _ _,
      .announced hlogs hquiet hmore, .announced hlogs' hquiet hmore', fun hnone => ?_⟩
    obtain ⟨hran, hmore⟩ := Bool.or_eq_false_iff.mp hnone
    rw [List.flatMap_cons, (hquiet hran).1, hquiet' hmore]
    rfl

end

end Comparison

/-- The names that only the deferral concerns: that of the deferred task, and those that
the calls around it register. -/
def Playbook.Private (book : Playbook) (f : String) (t : Task) (key : String) : Prop :=
  key = f ∨ ∃ p ∈ book.plays, ∃ a, p.Encloses a t ∧ a.register = some key

/-- A task of the playbook that may be deferred. It is a command that registers nothing, and
no handler comes to it. The module calls around it notify only what it notifies itself, and
no task reads what is private to the deferral. -/
structure Playbook.MayDefer (book : Playbook) (f : String) (t : Task) : Prop where
  sync : t.isDeferred = false
  register : t.register = none
  command : ∀ p ∈ book.plays, t ∈ p.declared → p.module? t.command = none
  handlers : ∀ p ∈ book.plays, ∀ a ∈ p.handlers, ¬ p.Encloses a t
  notify : ∀ p ∈ book.plays, ∀ a, p.Encloses a t → a.notify ⊆ t.notify
  unread : ∀ p ∈ book.plays, ∀ a ∈ p.declared, ∀ key ∈ a.mentions, ¬ book.Private f t key

namespace Runner

open Step RunState

variable {setup : Setup σ} {book book' : Playbook} {f : String} {t : Task}

/-- A run without and a run with the deferral are compared in the same surroundings. -/
def deferring (setup : Setup σ) (book : Playbook) (f : String) (t : Task) : Comparison σ where
  setup := setup
  hidden := book.Private f t
  hosts := Eq

theorem deferral_of_mayDefer (h : book.MayDefer f t) (hhost : setup.host.Honest)
    (hexternal : ∀ name params s, setup.host.runExternal (t.deferredAs f) name params s =
      setup.host.runExternal t name params s) {p q : Play} (hp : p ∈ book.plays)
    (hpq : p.Defers f t q) : (deferring setup book f t).Deferral p q f t where
  toDefers := hpq
  hidden := .inl rfl
  unread := h.unread p hp
  honest := hhost
  steady _ command _ := Command.steady_of_external hexternal command
  command := h.command p hp
  sync := h.sync
  register := h.register
  calls a ha := ⟨h.notify p hp a ha, fun _ hname => .inr ⟨p, hp, a, ha, hname⟩⟩
  outside := h.handlers p hp

theorem events_of_phases {world : World σ} {v w : RunState σ} {ran : Bool}
    (hrun : (runPhases setup book.plays).run.run (RunState.initial world) = (.ok (), v))
    (hend : v = (if ran then w.push .finishHandlers else w).push .finishAll) :
    w.events.toList <+: (run setup book world).events := by
  have hlast : v.events.toList <+: (run setup book world).events := by
    rw [run_eq, hrun]
    exact List.prefix_append _ _
  have hw : w.events.toList <+: v.events.toList := by
    rw [hend]
    cases ran with
    | false => exact prefix_push _ _
    | true => exact (prefix_push _ _).trans (prefix_push _ _)
  exact hw.trans hlast

/-- A module call around the task notifies a handler, and registers its result. -/
def errand (t : Task) : Playbook where
  plays := [{
    name := "p"
    tasks := [{ name := "c", command := "m", notify := ["h"], register := some "seen" }]
    handlers := [{ name := "g", command := "touch" }, { name := "h", command := "touch" }]
    modules := [("m", { name := "m", tasks := [t] })] }]

def touched (notify : List String) : Task := { name := "t", command := "touch", notify }

theorem mentions_touching {name : String} {params : Vars} {command : Command}
    (h : touching.registry.bind name params = .ok command) : command.mentions = [] := by
  obtain ⟨binder, hbinder, hcommand⟩ := exists_binder h
  have hlookup : List.lookup name [("touch", fun params =>
      Except.ok (Command.external "touch" params))] = some binder := hbinder
  rw [List.lookup_cons] at hlookup
  cases hname : name == "touch" with
  | true =>
    rw [hname] at hlookup
    obtain rfl := Option.some.inj hlookup
    cases hcommand
    rfl
  | false =>
    rw [hname] at hlookup
    cases hlookup

theorem mentions_errand (notify : List String) : ∀ p ∈ (errand (touched notify)).plays,
    ∀ a ∈ p.declared, a.mentions = [] := by
  simp only [errand, List.forall_mem_singleton, Play.declared, List.cons_append, List.nil_append,
    List.flatMap_cons, List.flatMap_nil, List.append_nil, List.forall_mem_cons]
  exact ⟨by cbv, by cbv, by cbv, by cbv⟩

theorem mayDefer_errand : (errand (touched ["h"])).MayDefer "f" (touched ["h"]) where
  sync := rfl
  register := rfl
  command := by
    rintro p hp -
    obtain rfl := List.mem_singleton.mp hp
    rfl
  handlers := by
    intro p hp a ha hencloses
    obtain rfl := List.mem_singleton.mp hp
    obtain ⟨m, hm⟩ := hencloses.exists_module
    have hcommand : a.command = "touch" := by
      revert a
      simp
    rw [hcommand] at hm
    cases hm
  notify := by
    have hnotify : ∀ p ∈ (errand (touched ["h"])).plays, ∀ a ∈ p.declared,
        a.notify ⊆ (touched ["h"]).notify := by decide
    exact fun p hp a ha => hnotify p hp a ha.1
  unread p hp a ha key hkey := by
    rw [mentions_errand ["h"] p hp a ha] at hkey
    cases hkey

theorem defers_errand (notify : List String) :
    List.Forall₂ (fun p q => p.Defers "f" (touched notify) q) (errand (touched notify)).plays
      (errand ((touched notify).deferredAs "f")).plays := by
  refine .cons ⟨rfl, rfl, rfl, ?_, ?_⟩ .nil
  · exact .cons (.inl rfl) .nil
  · exact .cons ⟨rfl, rfl, .cons (.inr ⟨rfl, rfl⟩) .nil⟩ .nil

end Runner

end PlaybookRunner
