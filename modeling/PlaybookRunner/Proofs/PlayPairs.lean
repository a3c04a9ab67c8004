import PlaybookRunner.Proofs.Lockstep
import PlaybookRunner.Proofs.Spared

/-!
# Plays in lockstep

The phases of a play are run in two mirrored worlds. What the play reports and records
in the one run it reports and records in the other. Only the announcement of the
handlers depends on what other plays have done before.
-/

namespace PlaybookRunner

variable {σ α β : Type}

namespace RunState

variable {s v : RunState σ}

theorem Logs.of_resumed {P : Part} {st : PlayState} {ran started : Bool}
    (h : ((s.resumed st).announceIf ran started).Logs P v) :
    (s.announceIf ran started).Logs P v := by
  cases ran <;> cases started <;> exact ⟨h.events, h.recorded, h.futures⟩

theorem Logs.nothing {P : Part} (h : s.Logs P s) : P.events = [] ∧ P.recorded = [] :=
  ⟨List.self_eq_append_right.mp h.events, List.self_eq_append_right.mp h.recorded⟩

end RunState

/-- The states of a play in two runs. -/
structure PlayState.Mirrors (p q : Play) (π : Pairing) (st st' : PlayState) : Prop where
  left : st.play = p
  right : st'.play = q
  table : π.tables st.table st'.table
  notified : ∀ name, name ∈ st.notified ↔ name ∈ st'.notified
  deferred : List.Forall₂ (Deferred.Mirrors π) st.deferred st'.deferred

theorem PlayState.Mirrors.mono {p q : Play} {π ρ : Pairing} {st st' : PlayState}
    (h : st.Mirrors p q π st') (hle : π ≤ ρ) : st.Mirrors p q ρ st' :=
  ⟨h.left, h.right, hle.1 h.table, h.notified, h.deferred.imp fun _ _ hd => hd.mono hle⟩

/-- Both parts end well with answers that are related, or both stop for one reason. -/
inductive Outcomes (R : α → β → Prop) : Except Stop α → Except Stop β → Prop
  | ok {a : α} {b : β} (h : R a b) : Outcomes R (.ok a) (.ok b)
  | stop (e : Stop) : Outcomes R (.error e) (.error e)

theorem Outcomes.imp {R Q : α → β → Prop} {o : Except Stop α} {o' : Except Stop β}
    (h : Outcomes R o o') (hQ : ∀ a b, R a b → Q a b) : Outcomes Q o o' := by
  cases h with
  | ok h => exact .ok (hQ _ _ h)
  | stop e => exact .stop e

/-- Both parts run some handler, or none does. -/
inductive HandlersOutcomes (ran started started' : Bool) :
    Except Stop Bool → Except Stop Bool → Prop
  | ok : HandlersOutcomes ran started started' (.ok (started || ran)) (.ok (started' || ran))
  | stop (e : Stop) : HandlersOutcomes ran started started' (.error e) (.error e)

theorem HandlersOutcomes.started {ran started started' : Bool} {o o' : Except Stop Bool}
    (h : HandlersOutcomes ran true true o o') : HandlersOutcomes true started started' o o' := by
  cases h with
  | ok => cases started <;> cases started' <;> exact .ok
  | stop e => exact .stop e

theorem Alike.notified {π : Pairing} {s v s' v' : RunState σ} (h : Alike π s v s' v')
    (hnotified : ∀ name, name ∈ s.current.notified ↔ name ∈ s'.current.notified) (name : String) :
    name ∈ v.current.notified ↔ name ∈ v'.current.notified := by
  obtain ⟨P, ds, ds', hgains, hgains', -⟩ := h
  rw [hgains.notified, hgains'.notified, hnotified]

namespace Comparison

open Step RunState Runner

variable {c : Comparison σ} {p q : Play} {π ρ : Pairing} {s s' : RunState σ} {T : Task → Prop}
  {st st' : PlayState}

theorem Together.announceIf (h : c.Together p q π s s') (ran started started' : Bool) :
    c.Together p q π (s.announceIf ran started) (s'.announceIf ran started') := by
  refine ⟨?_, ?_, ?_, ?_⟩
  · rw [world_announceIf, world_announceIf]
    exact h.world
  · rw [current_announceIf, current_announceIf]
    exact h.table
  · rw [current_announceIf]
    exact h.left
  · rw [current_announceIf]
    exact h.right

theorem lockstep_runPlayTask (hshares : c.Shares p q T) {t : Task} (ht : T t)
    (hroot : Scope.Mirrors π c.setup.root c.setup.root) :
    c.Lockstep p q π (runPlayTask c.setup t) (runPlayTask c.setup t) := by
  refine Lockstep.getThen (fun table => goes_runPlayTask c.setup t) fun hle htogether => ?_
  exact (lockstep_runTask hshares c.setup.callDepth).keeps ht
    ((hroot.mono hle).table htogether.table)

/-- Deferred tasks that correspond are awaited alike. -/
theorem awaits_meet (hname : p.name = q.name) {ds ds' : List Deferred}
    (h : c.Together p q π s s') (hds : List.Forall₂ (Deferred.Mirrors π) ds ds') :
    let r := (ds.forM (await c.setup)).run.run s
    let r' := (ds'.forM (await c.setup)).run.run s'
    r.1 = r'.1 ∧ c.Together p q π r.2 r'.2 ∧ ∃ P, s.Gains P [] r.2 ∧ s'.Gains P [] r'.2 := by
  induction hds generalizing s s' with
  | nil => exact ⟨rfl, h, {}, .refl s, .refl s'⟩
  | @cons d d' ds ds' hd _ ih =>
    have hcons (e : Deferred) (es : List Deferred) : (e :: es).forM (await c.setup) =
        await c.setup e >>= fun _ => es.forM (await c.setup) := rfl
    rw [hcons d ds, hcons d' ds']
    obtain ⟨answer, hanswer⟩ := h.world.settled.exists_answer d.future
    have hanswer' : s'.world.answer? d'.future = some answer :=
      (h.world.answers hd.future).symm.trans hanswer
    have hplay : s.current.play.name = s'.current.play.name := by rw [h.left, h.right, hname]
    cases answer with
    | ok result =>
      have hrests := rests_afterAwait d.task result s
      have hrests' := rests_afterAwait d.task result s'
      have hnext : c.Together p q π (s.afterAwait d.task result) (s'.afterAwait d.task result) :=
        ⟨h.world, by rw [hrests.table, hrests'.table]; exact h.table, hrests.play.trans h.left,
          hrests'.play.trans h.right⟩
      obtain ⟨ho, htogether, P, hgains, hgains'⟩ := ih hnext
      rw [run_bind_of_ok (run_await_ok hanswer), run_bind_of_ok (run_await_ok hanswer'), ← hd.task]
      exact ⟨ho, htogether, .await d.task result ++ P,
        (gains_afterAwait d.task result s).trans hgains,
        (gains_afterAwait d.task result s').trans hgains'⟩
    | error e =>
      rw [run_bind_of_error (run_await_error hanswer), run_bind_of_error (run_await_error hanswer'),
        ← hd.task, ← hd.name, hplay]
      exact ⟨rfl, h.push _, _, gains_finish d.task _ s, gains_finish d.task _ s'⟩

theorem drain_meets (hname : p.name = q.name) (h : c.Together p q π s s')
    (hds : List.Forall₂ (Deferred.Mirrors π) s.current.deferred s'.current.deferred) :
    let r := (drain c.setup).run.run s
    let r' := (drain c.setup).run.run s'
    r.1 = r'.1 ∧ c.Together p q π r.2 r'.2 ∧
      ∃ P, s.cleared.Gains P [] r.2 ∧ s'.cleared.Gains P [] r'.2 := by
  have hcleared : c.Together p q π s.cleared s'.cleared := ⟨h.world, h.table, h.left, h.right⟩
  exact awaits_meet hname hcleared hds

/-- The handlers of the play have been considered in both runs. -/
def HandlersMet (c : Comparison σ) (p q : Play) (π : Pairing) (started started' : Bool)
    (s s' : RunState σ) (r r' : Except Stop Bool × RunState σ) : Prop :=
  ∃ ran ρ, π ≤ ρ ∧ c.Together p q ρ r.2 r'.2 ∧
    Alike ρ (s.announceIf ran started) r.2 (s'.announceIf ran started') r'.2 ∧
    HandlersOutcomes ran started started' r.1 r'.1 ∧ (ran = false → r.2 = s ∧ r'.2 = s')

theorem handlers_meet (hshares : c.Shares p q T) {handlers : List Task}
    (hT : ∀ t ∈ handlers, T t) (started started' : Bool)
    (hroot : Scope.Mirrors π c.setup.root c.setup.root) (h : c.Together p q π s s')
    (hnotified : ∀ name, name ∈ s.current.notified ↔ name ∈ s'.current.notified)
    (hfair : c.Fair ((handlers.foldlM (runHandler c.setup) started).run.run s).2.events.toList) :
    c.HandlersMet p q π started started' s s'
      ((handlers.foldlM (runHandler c.setup) started).run.run s)
      ((handlers.foldlM (runHandler c.setup) started').run.run s') := by
  induction handlers generalizing π s s' started started' with
  | nil =>
    refine ⟨false, π, Pairing.le_refl π, h, .refl π s s', ?_, fun _ => ⟨rfl, rfl⟩⟩
    have hsame (b : Bool) : (List.foldlM (runHandler c.setup) b []).run = pure (.ok (b || false)) :=
      by rw [Bool.or_false]; rfl
    rw [hsame, hsame]
    exact .ok
  | cons handler handlers ih =>
    obtain ⟨ht, hT⟩ := List.forall_mem_cons.mp hT
    rw [List.foldlM_cons] at hfair ⊢
    rw [List.foldlM_cons]
    by_cases hmem : handler.name ∈ s.current.notified
    · have hmem' : handler.name ∈ s'.current.notified := (hnotified _).mp hmem
      have hstart : c.Together p q π (s.announceIf true started) (s'.announceIf true started') :=
        h.announceIf true started started'
      have hnotified' : ∀ name, name ∈ (s.announceIf true started).current.notified ↔
          name ∈ (s'.announceIf true started').current.notified := by
        simpa only [current_announceIf] using hnotified
      have hlockstep : c.Lockstep p q π (runPlayTask c.setup handler)
        (runPlayTask c.setup handler) := lockstep_runPlayTask hshares ht hroot
      rcases hrun : (runPlayTask c.setup handler).run.run (s.announceIf true started) with ⟨o, v⟩
      rcases hrun' : (runPlayTask c.setup handler).run.run (s'.announceIf true started')
        with ⟨o', v'⟩
      have hhandler := run_runHandler_of_mem hmem hrun
      have hhandler' := run_runHandler_of_mem hmem' hrun'
      cases o with
      | error e =>
        rw [run_bind_of_error hhandler] at hfair ⊢
        obtain ⟨ho, ρ, hρ, htogether, halike⟩ :=
          hlockstep.meets (Pairing.le_refl π) hstart (hrun.symm ▸ hfair)
        rw [hrun, hrun'] at ho htogether halike
        cases ho
        rw [run_bind_of_error hhandler']
        exact ⟨true, ρ, hρ, htogether, halike, .stop e, by simp⟩
      | ok changed =>
        rw [run_bind_of_ok hhandler] at hfair ⊢
        -- The handlers after it are announced already, in both runs.
        have hended : (s.announceIf true started).Ended 0 (.ok changed) v :=
          (hlockstep.goes _ _ hstart.ready).of_run hrun
        have hlater : v.events.toList <+:
            ((handlers.foldlM (runHandler c.setup) true).run.run v).2.events.toList :=
          Ended.events (goes_handlers c.setup true handlers v (hended.ready hstart.ready))
        obtain ⟨ho, ρ, hρ, htogether, halike⟩ :=
          hlockstep.meets (Pairing.le_refl π) hstart (hrun.symm ▸ hfair.before hlater)
        rw [hrun, hrun'] at ho htogether halike
        cases ho
        rw [run_bind_of_ok hhandler']
        obtain ⟨ran, τ, hτ, hend, hmore, houtcomes, -⟩ :=
          ih hT true true (hroot.mono hρ) htogether (halike.notified hnotified') hfair
        have hkept (u : RunState σ) : u.announceIf ran true = u := by
          cases ran <;> rfl
        rw [hkept, hkept] at hmore
        exact ⟨true, τ, Pairing.le_trans hρ hτ, hend, halike.trans hτ hmore, houtcomes.started,
          by simp⟩
    · have hmem' : handler.name ∉ s'.current.notified := fun h => hmem ((hnotified _).mpr h)
      rw [run_bind_of_ok (run_runHandler_of_notMem hmem)] at hfair ⊢
      rw [run_bind_of_ok (run_runHandler_of_notMem hmem')]
      exact ih hT started started' hroot h hnotified hfair

/-- A phase of a play goes alike in both runs: they log the same, and the answers are
related where both end well. -/
def PhaseMet (c : Comparison σ) (R : Pairing → α → β → Prop) (π : Pairing) (s s' : RunState σ)
    (r : Except Stop α × RunState σ) (r' : Except Stop β × RunState σ) : Prop :=
  ∃ ρ P, π ≤ ρ ∧ c.Mirrors ρ r.2.world r'.2.world ∧ s.Logs P r.2 ∧ s'.Logs P r'.2 ∧
    Outcomes (R ρ) r.1 r'.1

theorem runPlay_meets (hshares : c.Shares p q T) (htasks : q.tasks = p.tasks)
    (hT : ∀ t ∈ p.tasks, T t) (hvars : q.vars = p.vars)
    (hroot : Scope.Mirrors π c.setup.root c.setup.root) (h : c.Mirrors π s.world s'.world)
    (hfair : c.Fair ((runPlay c.setup p).run.run s).2.events.toList) :
    c.PhaseMet (PlayState.Mirrors p q) π s s' ((runPlay c.setup p).run.run s)
      ((runPlay c.setup q).run.run s') := by
  let ρ := π.addTables s.world.tables.size s'.world.tables.size
  have hle : π ≤ ρ := π.le_addTables _ _
  have hentered : c.Together p q ρ (s.entered p) (s'.entered q) := by
    refine ⟨?_, .inr ⟨rfl, rfl⟩, rfl, rfl⟩
    unfold entered
    rw [hvars]
    exact h.newTables p.vars
  have hlockstep : c.Lockstep p q ρ (anyChanged (runPlayTask c.setup) p.tasks)
      (anyChanged (runPlayTask c.setup) q.tasks) := by
    rw [htasks]
    exact .anyChanged fun t ht => lockstep_runPlayTask hshares (hT t ht) (hroot.mono hle)
  rcases hrun : (anyChanged (runPlayTask c.setup) p.tasks).run.run (s.entered p) with ⟨o, v⟩
  rcases hrun' : (anyChanged (runPlayTask c.setup) q.tasks).run.run (s'.entered q) with ⟨o', v'⟩
  rw [run_runPlay hrun] at hfair ⊢
  rw [run_runPlay hrun']
  obtain ⟨ho, τ, hτ, htogether, P, ds, ds', hgains, hgains', hds⟩ :=
    hlockstep.meets (Pairing.le_refl ρ) hentered (hrun.symm ▸ hfair)
  rw [hrun, hrun'] at ho htogether
  rw [hrun] at hgains
  rw [hrun'] at hgains'
  cases ho
  have hst : v.current.Mirrors p q τ v'.current := by
    refine ⟨htogether.left, htogether.right, htogether.table, fun name => ?_, ?_⟩
    · rw [hgains.notified, hgains'.notified]
      exact Iff.rfl
    · rw [hgains.deferred, hgains'.deferred]
      exact hds
  have hlogs (u : RunState σ) (r : Play) : u.Logs {} (u.entered r) :=
    ⟨(List.append_nil _).symm, (List.append_nil _).symm, List.prefix_refl _⟩
  refine ⟨τ, {} ++ P, Pairing.le_trans hle hτ, htogether.world, (hlogs s p).trans hgains.toLogs,
    (hlogs s' q).trans hgains'.toLogs, ?_⟩
  cases o with
  | error e => exact .stop e
  | ok changed => exact .ok hst

theorem Together.resumed (h : c.Mirrors π s.world s'.world) (hst : st.Mirrors p q π st') :
    c.Together p q π (s.resumed st) (s'.resumed st') := ⟨h, hst.table, hst.left, hst.right⟩

theorem drainPlay_meets (hname : p.name = q.name) (h : c.Mirrors π s.world s'.world)
    (hst : st.Mirrors p q π st') :
    c.PhaseMet (fun ρ st st' => st.Mirrors p q ρ st' ∧ st.deferred = []) π s s'
      ((drainPlay c.setup st).run.run s) ((drainPlay c.setup st').run.run s') := by
  have hresumed : c.Together p q π (s.resumed st) (s'.resumed st') := .resumed h hst
  obtain ⟨ho, htogether, P, hgains, hgains'⟩ := drain_meets hname hresumed hst.deferred
  rcases hrun : (drain c.setup).run.run (s.resumed st) with ⟨o, v⟩
  rcases hrun' : (drain c.setup).run.run (s'.resumed st') with ⟨o', v'⟩
  rw [run_drainPlay hrun, run_drainPlay hrun']
  rw [hrun, hrun'] at ho htogether
  rw [hrun] at hgains
  rw [hrun'] at hgains'
  cases ho
  refine ⟨π, P, Pairing.le_refl π, htogether.world,
    ⟨hgains.events, hgains.recorded, hgains.futures⟩,
    ⟨hgains'.events, hgains'.recorded, hgains'.futures⟩, ?_⟩
  cases o with
  | error e => exact .stop e
  | ok _ =>
    refine .ok ⟨⟨htogether.left, htogether.right, htogether.table, fun name => ?_, ?_⟩,
      hgains.deferred⟩
    · rw [hgains.notified, hgains'.notified]
      exact or_congr_left (hst.notified name)
    · rw [hgains.deferred, hgains'.deferred]
      exact .nil

/-- The handlers of a play go alike in both runs, but for their announcement. -/
def HandlersPhaseMet (c : Comparison σ) (π : Pairing) (started started' : Bool)
    (s s' : RunState σ) (r r' : Except Stop Bool × RunState σ) : Prop :=
  ∃ ran ρ P, π ≤ ρ ∧ c.Mirrors ρ r.2.world r'.2.world ∧
    (s.announceIf ran started).Logs P r.2 ∧ (s'.announceIf ran started').Logs P r'.2 ∧
    HandlersOutcomes ran started started' r.1 r'.1 ∧
    (ran = false → P.events = [] ∧ P.recorded = [])

theorem runHandlers_meets (hshares : c.Shares p q T) (hhandlers : q.handlers = p.handlers)
    (hT : ∀ t ∈ p.handlers, T t) (started started' : Bool)
    (hroot : Scope.Mirrors π c.setup.root c.setup.root) (h : c.Mirrors π s.world s'.world)
    (hst : st.Mirrors p q π st') (hdrained : st.deferred = [])
    (hfair : c.Fair ((runHandlers c.setup started st).run.run s).2.events.toList) :
    c.HandlersPhaseMet π started started' s s' ((runHandlers c.setup started st).run.run s)
      ((runHandlers c.setup started' st').run.run s') := by
  have hresumed : c.Together p q π (s.resumed st) (s'.resumed st') := .resumed h hst
  obtain ⟨rfl, rfl, -, hnotified, hwaiting⟩ := hst
  rcases hrun : (st.play.handlers.foldlM (runHandler c.setup) started).run.run (s.resumed st)
    with ⟨o, v⟩
  rcases hrun' : (st'.play.handlers.foldlM (runHandler c.setup) started').run.run
    (s'.resumed st') with ⟨o', v'⟩
  have hmet (hv : c.Fair v.events.toList) : c.HandlersMet st.play st'.play π started started'
      (s.resumed st) (s'.resumed st') (o, v) (o', v') := by
    have hboth := handlers_meet hshares hT started started' hroot hresumed hnotified
      (hrun.symm ▸ hv)
    rw [hhandlers] at hrun'
    rwa [hrun, hrun'] at hboth
  cases o with
  | error e =>
    rw [run_runHandlers_of_error hrun] at hfair ⊢
    obtain ⟨ran, ρ, hρ, htogether, ⟨P, ds, ds', hgains, hgains', -⟩, houtcomes, hquiet⟩ :=
      hmet hfair
    cases houtcomes
    rw [run_runHandlers_of_error hrun']
    refine ⟨ran, ρ, P, hρ, htogether.world, hgains.toLogs.of_resumed, hgains'.toLogs.of_resumed,
      .stop e, ?_⟩
    rintro rfl
    obtain ⟨rfl, -⟩ := hquiet rfl
    exact hgains.toLogs.nothing
  | ok b =>
    rcases hdrain : (drain c.setup).run.run v with ⟨e, w⟩
    rcases hdrain' : (drain c.setup).run.run v' with ⟨e', w'⟩
    rw [run_runHandlers_of_ok hrun hdrain] at hfair ⊢
    have hended : (s.resumed st).Ended 0 (.ok b) v :=
      (goes_handlers c.setup started st.play.handlers _ hresumed.ready).of_run hrun
    have hrests : v.cleared.Rests w := by
      have hsettled := (hended.ready hresumed.ready).settled
      rw [show w = ((drain c.setup).run.run v).2 by rw [hdrain]]
      exact drain_rests hsettled
    obtain ⟨ran, ρ, hρ, htogether, ⟨P, ds, ds', hgains, hgains', hds⟩, houtcomes, hquiet⟩ :=
      hmet (hfair.before hrests.events)
    cases houtcomes
    rw [run_runHandlers_of_ok hrun' hdrain']
    have hdeferred : List.Forall₂ (Deferred.Mirrors ρ) v.current.deferred v'.current.deferred := by
      rw [hgains.deferred, hgains'.deferred, current_announceIf, current_announceIf]
      exact List.rel_append (hwaiting.imp fun _ _ hd => hd.mono hρ) hds
    obtain ⟨ho, hend, Q, hmore, hmore'⟩ := drain_meets hshares.name htogether hdeferred
    rw [hdrain, hdrain'] at ho hend
    rw [hdrain] at hmore
    rw [hdrain'] at hmore'
    cases ho
    have hlogs : v.Logs Q w := ⟨hmore.events, hmore.recorded, hmore.futures⟩
    have hlogs' : v'.Logs Q w' := ⟨hmore'.events, hmore'.recorded, hmore'.futures⟩
    refine ⟨ran, ρ, P ++ Q, hρ, hend.world, (hgains.toLogs.trans hlogs).of_resumed,
      (hgains'.toLogs.trans hlogs').of_resumed, ?_, ?_⟩
    · cases e with
      | error e => exact .stop e
      | ok _ => exact .ok
    · rintro rfl
      obtain ⟨rfl, -⟩ := hquiet rfl
      rw [drain_of_nil hdrained] at hdrain
      cases hdrain
      exact (hgains.toLogs.trans hlogs).nothing

end Comparison

end PlaybookRunner
