import PlaybookRunner.Proofs.Moves

/-!
# What a play spares

A play writes to its own table and to the tables that are added while it runs. All
other tables and the futures that were there before are spared, in every phase and
however the phase ends. In particular a run spares the tables outside the plays.
-/

namespace PlaybookRunner

variable {σ α β : Type}

/-- Futures are added, and of the first tables only that of the running play changes. -/
structure World.Spares (n table : Nat) (w v : World σ) : Prop where
  size_le : w.tables.size ≤ v.tables.size
  tables : ∀ i < n, i ≠ table → v.tables[i]? = w.tables[i]?
  futures : w.futures.toList <+: v.futures.toList

namespace World

variable {n table : Nat} {u v w : World σ}

theorem Spares.refl (w : World σ) : w.Spares n table w :=
  ⟨Nat.le_refl _, fun _ _ _ => rfl, List.prefix_refl _⟩

theorem Spares.of_eq (htables : v.tables = w.tables) (hfutures : v.futures = w.futures) :
    w.Spares n table v := by
  exact ⟨Nat.le_of_eq (by rw [htables]), fun _ _ _ => by rw [htables],
    hfutures ▸ List.prefix_refl _⟩

theorem Spares.trans (h : w.Spares n table v) (h' : v.Spares n table u) : w.Spares n table u where
  size_le := Nat.le_trans h.size_le h'.size_le
  tables i hi hne := (h'.tables i hi hne).trans (h.tables i hi hne)
  futures := h.futures.trans h'.futures

end World

namespace RunState

variable {s u v : RunState σ}

/-- Only reports are added, and handlers are notified. -/
structure Rests (s v : RunState σ) : Prop where
  events : s.events.toList <+: v.events.toList
  world : v.world = s.world
  play : v.current.play = s.current.play
  table : v.current.table = s.current.table
  deferred : v.current.deferred = s.current.deferred

theorem Rests.refl (s : RunState σ) : s.Rests s := ⟨List.prefix_refl _, rfl, rfl, rfl, rfl⟩

theorem Rests.trans (h : s.Rests u) (h' : u.Rests v) : s.Rests v where
  events := h.events.trans h'.events
  world := h'.world.trans h.world
  play := h'.play.trans h.play
  table := h'.table.trans h.table
  deferred := h'.deferred.trans h.deferred

theorem rests_afterAwait (t : Task) (result : TaskResult) (s : RunState σ) :
    s.Rests (s.afterAwait t result) := by
  refine ⟨prefix_push _ _, rfl, ?_, ?_, ?_⟩ <;>
  · unfold afterAwait
    dsimp only
    split <;> rfl

/-- The running play forgets what it has deferred. -/
def cleared (s : RunState σ) : RunState σ :=
  { s with current := { s.current with deferred := [] } }

/-- The handlers are announced by the first that runs. -/
def announceIf (ran started : Bool) (s : RunState σ) : RunState σ :=
  if ran && !started then s.push .startHandlers else s

theorem current_announceIf (ran started : Bool) (s : RunState σ) :
    (s.announceIf ran started).current = s.current := by
  unfold announceIf
  split <;> rfl

theorem world_announceIf (ran started : Bool) (s : RunState σ) :
    (s.announceIf ran started).world = s.world := by
  unfold announceIf
  split <;> rfl

/-- A play begins with a table of its own. -/
def entered (p : Play) (s : RunState σ) : RunState σ where
  world := (s.world.newTable p.vars).2
  events := s.events
  current := { play := p, table := s.world.tables.size }

/-- A play is resumed. -/
def resumed (st : PlayState) (s : RunState σ) : RunState σ := { s with current := st }

section

variable {n table : Nat}

theorem Move.spares (h : s.Ready n table) (hm : s.Move n v) : s.world.Spares n table v.world := by
  obtain ⟨-, hsize, rfl⟩ := h
  have hown {i : Nat} (hi : i < n) (hne : i ≠ s.current.table) : ¬ Own n s.current.table i := by
    rintro (heq | hle)
    · exact hne heq
    · exact absurd hi (Nat.not_lt.mpr hle)
  cases hm with
  | work hw =>
    exact ⟨hw.size_le, fun i hi hne => hw.kept i (Nat.lt_of_lt_of_le hi hsize) (hown hi hne),
      hw.futures ▸ List.prefix_refl _⟩
  | tell _ => exact .refl _
  | report t result => exact .of_eq rfl rfl
  | dispatch hd =>
    obtain ⟨name, outcome, hfutures, -⟩ := hd.futures
    refine ⟨hd.size_le, fun i hi hne => hd.kept i (Nat.lt_of_lt_of_le hi hsize) (hown hi hne), ?_⟩
    rw [hfutures, Array.toList_push]
    exact List.prefix_append _ _

theorem Moves.spares (h : s.Ready n table) (hm : s.Moves n v) :
    s.world.Spares n table v.world := by
  induction hm with
  | refl => exact .refl _
  | tail hsteps hstep ih => exact ih.trans (hstep.spares (Moves.ready h hsteps))

theorem Fails.spares (hf : s.Fails v) : s.world.Spares n table v.world := by
  induction hf with
  | turn => exact .refl _
  | command t _ => exact .of_eq rfl rfl
  | call _ t cause ih => exact ih

theorem Ended.spares {o : Except Stop α} (h : s.Ready n table) (hv : s.Ended n o v) :
    s.world.Spares n table v.world := by
  cases hv with
  | done _ hv => exact hv.spares h
  | deep hv => exact hv.spares h
  | failed _ hv hfails => exact (hv.spares h).trans hfails.spares

end

end RunState

namespace Runner

open Step RunState

variable {setup : Setup σ} {s : RunState σ}

theorem awaits_rest (hsettled : s.world.Settled) (ds : List Deferred) :
    s.Rests ((ds.forM (await setup)).run.run s).2 := by
  induction ds generalizing s with
  | nil => exact .refl s
  | cons d ds ih =>
    change s.Rests ((await setup d >>= fun _ => ds.forM (await setup)).run.run s).2
    obtain ⟨answer, hanswer⟩ := hsettled.exists_answer d.future
    cases answer with
    | ok result =>
      rw [run_bind_of_ok (run_await_ok hanswer)]
      exact (rests_afterAwait d.task result s).trans (ih hsettled)
    | error e =>
      rw [run_bind_of_error (run_await_error hanswer)]
      exact ⟨prefix_push _ _, rfl, rfl, rfl, rfl⟩

theorem drain_rests (hsettled : s.world.Settled) :
    s.cleared.Rests ((drain setup).run.run s).2 :=
  awaits_rest (s := s.cleared) hsettled s.current.deferred

theorem drain_of_nil (h : s.current.deferred = []) : (drain setup).run.run s = (.ok (), s) := by
  have hrun : (drain setup).run.run s =
      (s.current.deferred.forM (await setup)).run.run s.cleared := rfl
  have hcleared : s.cleared = s := by
    unfold cleared
    rw [← h]
  rw [hrun, h, hcleared]
  rfl

section

variable {o : Except Stop Bool} {v : RunState σ}

theorem run_runPlay {p : Play}
    (hrun : (anyChanged (runPlayTask setup) p.tasks).run.run (s.entered p) = (o, v)) :
    (runPlay setup p).run.run s = (o.map fun _ => v.current, v) := by
  change (anyChanged (runPlayTask setup) p.tasks >>= fun _ => do return (← get).current).run.run
    (s.entered p) = _
  cases o with
  | error e => exact run_bind_of_error hrun
  | ok changed => exact run_bind_of_ok hrun

theorem run_drainPlay {st : PlayState} {o : Except Stop Unit}
    (hrun : (drain setup).run.run (s.resumed st) = (o, v)) :
    (drainPlay setup st).run.run s = (o.map fun _ => v.current, v) := by
  change (drain setup >>= fun _ => do return (← get).current).run.run (s.resumed st) = _
  cases o with
  | error e => exact run_bind_of_error hrun
  | ok _ => exact run_bind_of_ok hrun

theorem run_runHandlers_of_error {started : Bool} {st : PlayState} {e : Stop}
    (hrun : (st.play.handlers.foldlM (runHandler setup) started).run.run (s.resumed st) =
      (.error e, v)) :
    (runHandlers setup started st).run.run s = (.error e, v) := by
  change (st.play.handlers.foldlM (runHandler setup) started >>= fun started => do
    drain setup
    return started).run.run (s.resumed st) = _
  exact run_bind_of_error hrun

theorem run_runHandlers_of_ok {started b : Bool} {st : PlayState} {u : RunState σ}
    {o : Except Stop Unit}
    (hhandlers : (st.play.handlers.foldlM (runHandler setup) started).run.run (s.resumed st) =
      (.ok b, u)) (hdrain : (drain setup).run.run u = (o, v)) :
    (runHandlers setup started st).run.run s = (o.map fun _ => b, v) := by
  change (st.play.handlers.foldlM (runHandler setup) started >>= fun started => do
    drain setup
    return started).run.run (s.resumed st) = _
  rw [run_bind_of_ok hhandlers]
  cases o with
  | error e => exact run_bind_of_error hdrain
  | ok _ => exact run_bind_of_ok hdrain

end

theorem run_runHandler_of_mem {started : Bool} {handler : Task}
    (h : handler.name ∈ s.current.notified) {o : Except Stop Bool} {v : RunState σ}
    (hrun : (runPlayTask setup handler).run.run (s.announceIf true started) = (o, v)) :
    (runHandler setup started handler).run.run s = (o.map fun _ => true, v) := by
  have hname : s.current.notified.contains handler.name = true := by simpa using h
  change (if s.current.notified.contains handler.name then _ else _ : Step σ Bool).run.run s = _
  rw [if_pos hname]
  have hend : (runPlayTask setup handler >>= fun _ => pure true).run.run
      (s.announceIf true started) = (o.map fun _ => true, v) := by
    cases o with
    | ok changed => exact run_bind_of_ok hrun
    | error e => exact run_bind_of_error hrun
  cases started <;> exact hend

theorem run_runHandler_of_notMem {started : Bool} {handler : Task}
    (h : handler.name ∉ s.current.notified) :
    (runHandler setup started handler).run.run s = (.ok started, s) := by
  have hname : ¬ s.current.notified.contains handler.name = true := by simpa using h
  change (if s.current.notified.contains handler.name then _ else _ : Step σ Bool).run.run s = _
  rw [if_neg hname]
  rfl

/-- How a phase of a play leaves the run. -/
structure Leaves (n table : Nat) (s v : RunState σ) : Prop where
  settled : v.world.Settled
  events : s.events.toList <+: v.events.toList
  spares : s.world.Spares n table v.world

theorem Leaves.refl {n table : Nat} (hsettled : s.world.Settled) : Leaves n table s s :=
  ⟨hsettled, List.prefix_refl _, .refl _⟩

theorem Leaves.trans {n table : Nat} {u v : RunState σ} (h : Leaves n table s u)
    (h' : Leaves n table u v) : Leaves n table s v :=
  ⟨h'.settled, h.events.trans h'.events, h.spares.trans h'.spares⟩

variable {n : Nat}

theorem Leaves.of_ended {table : Nat} {v : RunState σ} {o : Except Stop α} (h : s.Ready n table)
    (hv : s.Ended n o v) : Leaves n table s v :=
  ⟨(hv.ready h).settled, hv.events, hv.spares h⟩

theorem Leaves.of_rests {table : Nat} {v : RunState σ} (hsettled : s.world.Settled)
    (h : s.Rests v) : Leaves n table s v := by
  refine ⟨h.world ▸ hsettled, h.events, ?_⟩
  rw [h.world]
  exact .refl _

/-- A play runs in a table of its own. -/
theorem runPlay_leaves (p : Play) (hsettled : s.world.Settled) (hn : n ≤ s.world.tables.size) :
    (runPlay setup p).Ends s fun o v => Leaves n s.world.tables.size s v ∧
      ∀ st, o = .ok st → st.table = s.world.tables.size := by
  have hsize : (s.entered p).world.tables.size = s.world.tables.size + 1 := Array.size_push _
  have hready : (s.entered p).Ready n s.world.tables.size :=
    ⟨hsettled.of_futures rfl, by omega, rfl⟩
  have hentered : Leaves n s.world.tables.size s (s.entered p) := by
    refine ⟨hready.settled, List.prefix_refl _, ⟨by omega, fun i hi _ => ?_, List.prefix_refl _⟩⟩
    exact World.getElem?_newTable_of_lt (Nat.lt_of_lt_of_le hi hn) p.vars
  have hended := goes_tasks setup p.tasks (s.entered p) hready
  unfold Ends at hended ⊢
  rcases hrun : (anyChanged (runPlayTask setup) p.tasks).run.run (s.entered p) with ⟨o, v⟩
  rw [hrun] at hended
  rw [run_runPlay hrun]
  refine ⟨hentered.trans (.of_ended hready hended), fun st hst => ?_⟩
  cases o with
  | error e => cases hst
  | ok changed =>
    cases hst
    exact (hended.ready hready).table

theorem drainPlay_leaves (st : PlayState) (hsettled : s.world.Settled) :
    (drainPlay setup st).Ends s fun o v => s.events.toList <+: v.events.toList ∧
      v.world = s.world ∧ ∀ st', o = .ok st' → st'.table = st.table := by
  have hrests : (s.resumed st).cleared.Rests ((drain setup).run.run (s.resumed st)).2 :=
    drain_rests hsettled
  unfold Ends
  rcases hrun : (drain setup).run.run (s.resumed st) with ⟨o, v⟩
  rw [hrun] at hrests
  rw [run_drainPlay hrun]
  refine ⟨hrests.events, hrests.world, fun st' hst' => ?_⟩
  cases o with
  | error e => cases hst'
  | ok _ =>
    cases hst'
    exact hrests.table

theorem runHandlers_leaves (started : Bool) (st : PlayState) (hsettled : s.world.Settled)
    (hn : n ≤ s.world.tables.size) :
    (runHandlers setup started st).Ends s fun _ v => Leaves n st.table s v := by
  have hready : (s.resumed st).Ready n st.table := ⟨hsettled, hn, rfl⟩
  have hended := goes_handlers setup started st.play.handlers (s.resumed st) hready
  unfold Ends at hended ⊢
  rcases hrun : (st.play.handlers.foldlM (runHandler setup) started).run.run (s.resumed st)
    with ⟨o, v⟩
  rw [hrun] at hended
  have hresumed : Leaves n st.table (s.resumed st) v := .of_ended hready hended
  have hv : Leaves n st.table s v := ⟨hresumed.settled, hresumed.events, hresumed.spares⟩
  cases o with
  | error e =>
    rw [run_runHandlers_of_error hrun]
    exact hv
  | ok b =>
    have hrests : v.cleared.Rests ((drain setup).run.run v).2 := drain_rests hv.settled
    rcases hdrain : (drain setup).run.run v with ⟨e, w⟩
    rw [hdrain] at hrests
    rw [run_runHandlers_of_ok hrun hdrain]
    have hcleared : Leaves n st.table v.cleared w := .of_rests hv.settled hrests
    exact hv.trans ⟨hcleared.settled, hcleared.events, hcleared.spares⟩

/-- Only tables and futures are added. -/
abbrev Keeps (n : Nat) (s v : RunState σ) : Prop := Leaves n n s v

theorem Leaves.keeps {m table : Nat} {v : RunState σ} (h : Leaves n table s v) (hn : m ≤ n)
    (htable : m ≤ table) : Keeps m s v := by
  refine ⟨h.settled, h.events, h.spares.size_le, fun i hi _ => ?_, h.spares.futures⟩
  exact h.spares.tables i (Nat.lt_of_lt_of_le hi hn) (Nat.ne_of_lt (Nat.lt_of_lt_of_le hi htable))

theorem keeps_push {v : RunState σ} (h : Keeps n s v) (e : Event) : Keeps n s (v.push e) :=
  ⟨h.settled, h.events.trans (prefix_push _ _), h.spares⟩

variable {P : α → Prop} {Q : β → Prop}

theorem mapM_keeps {f : α → Step σ β} {as : List α} (has : ∀ a ∈ as, P a)
    (hsettled : s.world.Settled) (hn : n ≤ s.world.tables.size)
    (hf : ∀ a s, P a → s.world.Settled → n ≤ s.world.tables.size →
      (f a).Ends s fun o v => Keeps n s v ∧ ∀ b, o = .ok b → Q b) :
    (as.mapM f).Ends s fun o v => Keeps n s v ∧ ∀ bs, o = .ok bs → ∀ b ∈ bs, Q b := by
  induction as generalizing s with
  | nil => exact .pure ⟨.refl hsettled, by rintro _ ⟨⟩; simp⟩
  | cons a as ih =>
    obtain ⟨ha, has⟩ := List.forall_mem_cons.mp has
    rw [List.mapM_cons]
    apply (hf a s ha hsettled hn).bind
    · rintro b u ⟨hu, hb⟩
      apply (ih has hu.settled (Nat.le_trans hn hu.spares.size_le)).bind
      · rintro bs v ⟨hv, hbs⟩
        refine .pure ⟨hu.trans hv, ?_⟩
        rintro _ ⟨⟩
        exact List.forall_mem_cons.mpr ⟨hb b rfl, hbs bs rfl⟩
      · rintro e v ⟨hv, -⟩
        exact ⟨hu.trans hv, by simp⟩
    · rintro e u ⟨hu, -⟩
      exact ⟨hu, by simp⟩

theorem foldlM_keeps {f : β → α → Step σ β} {as : List α} (has : ∀ a ∈ as, P a) (b : β)
    (hsettled : s.world.Settled) (hn : n ≤ s.world.tables.size)
    (hf : ∀ b a s, P a → s.world.Settled → n ≤ s.world.tables.size →
      (f b a).Ends s fun _ v => Keeps n s v) :
    (as.foldlM f b).Ends s fun _ v => Keeps n s v := by
  induction as generalizing b s with
  | nil => exact .pure (.refl hsettled)
  | cons a as ih =>
    obtain ⟨ha, has⟩ := List.forall_mem_cons.mp has
    rw [List.foldlM_cons]
    apply (hf b a s ha hsettled hn).bind
    · intro b u hu
      apply (ih has b hu.settled (Nat.le_trans hn hu.spares.size_le)).mono
      exact fun _ v hv => hu.trans hv
    · exact fun _ _ hu => hu

theorem plays_keep (plays : List Play) (hsettled : s.world.Settled)
    (hn : n ≤ s.world.tables.size) :
    (plays.mapM (runPlay setup)).Ends s fun o v => Keeps n s v ∧
      ∀ sts, o = .ok sts → ∀ st ∈ sts, n ≤ st.table := by
  apply mapM_keeps (fun _ _ => trivial) hsettled hn
  intro p s _ hsettled hn
  apply (runPlay_leaves p hsettled hn).mono
  rintro o v ⟨hv, htable⟩
  exact ⟨hv.keeps (Nat.le_refl n) hn, fun st hst => htable st hst ▸ hn⟩

theorem drains_keep (sts : List PlayState) (hsts : ∀ st ∈ sts, n ≤ st.table)
    (hsettled : s.world.Settled) (hn : n ≤ s.world.tables.size) :
    (sts.mapM (drainPlay setup)).Ends s fun o v => Keeps n s v ∧
      ∀ sts', o = .ok sts' → ∀ st ∈ sts', n ≤ st.table := by
  apply mapM_keeps hsts hsettled hn
  intro st s hst hsettled _
  apply (drainPlay_leaves st hsettled).mono
  rintro o v ⟨hevents, hworld, htable⟩
  refine ⟨⟨hworld ▸ hsettled, hevents, ?_⟩, fun st' hst' => htable st' hst' ▸ hst⟩
  rw [hworld]
  exact .refl _

theorem handlers_keep (sts : List PlayState) (hsts : ∀ st ∈ sts, n ≤ st.table) (started : Bool)
    (hsettled : s.world.Settled) (hn : n ≤ s.world.tables.size) :
    (sts.foldlM (runHandlers setup) started).Ends s fun _ v => Keeps n s v := by
  apply foldlM_keeps hsts started hsettled hn
  intro started st s hst hsettled hn
  exact (runHandlers_leaves started st hsettled hn).mono fun _ _ hv =>
    hv.keeps (Nat.le_refl n) hst

/-- A run spares all tables that were there before it. -/
theorem runPhases_keeps (plays : List Play) (hsettled : s.world.Settled)
    (hn : n ≤ s.world.tables.size) :
    (runPhases setup plays).Ends s fun _ v => Keeps n s v := by
  apply Ends.modifyThen
  have hstart : Keeps n s (s.push .startTasks) := keeps_push (.refl hsettled) _
  apply (plays_keep plays (s := s.push .startTasks) hsettled hn).bind
  · rintro sts u ⟨hu, hsts⟩
    have hplays : Keeps n s (u.push .finishTasks) := keeps_push (hstart.trans hu) _
    have hle : n ≤ u.world.tables.size := Nat.le_trans hn hu.spares.size_le
    apply Ends.modifyThen
    apply (drains_keep sts (hsts sts rfl) (s := u.push .finishTasks) hu.settled hle).bind
    · rintro sts' v ⟨hv, hsts'⟩
      have hdrains : Keeps n s v := hplays.trans hv
      apply (handlers_keep sts' (hsts' sts' rfl) false hv.settled
        (Nat.le_trans hle hv.spares.size_le)).bind
      · intro started w hw
        have hhandlers : Keeps n s w := hdrains.trans hw
        cases started with
        | false => exact keeps_push hhandlers _
        | true => exact keeps_push (keeps_push hhandlers _) _
      · exact fun _ w hw => hdrains.trans hw
    · exact fun _ v hv => hplays.trans hv.1
  · exact fun _ u hu => hstart.trans hu.1

end Runner

end PlaybookRunner
