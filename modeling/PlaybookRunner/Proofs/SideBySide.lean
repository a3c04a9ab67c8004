import PlaybookRunner.Proofs.Mirrors

/-!
# Tasks side by side

Tasks that differ in their items only take the same steps for the same item. What each of
these steps keeps of two states, a whole turn keeps, with all that is called in it, and
both end alike. A relation of states that only relates them to themselves says in this way
what a single run keeps.
-/

namespace PlaybookRunner

variable {σ α : Type}

/-- The task with other items. -/
def Task.withItems (t : Task) (items : Option (List Value)) : Task := { t with items }

/-- The relation of states as one of the worlds in them, with the rest of both states kept. -/
def RunState.Around (R : RunState σ → RunState σ → Prop) (s s' : RunState σ) (w w' : World σ) :
    Prop := R { s with world := w } { s' with world := w' }

namespace Runner

open Step RunState

/-- The relation of states is kept by all that tasks do in scopes whose writes go to owned
tables. Tasks are paired that differ in their items at most. -/
structure KeptBySteps (setup : Setup σ) (own : Nat → Prop) (pairs : Task → Task → Prop)
    (R : RunState σ → RunState σ → Prop) : Prop where
  items : ∀ {t t'}, pairs t t' → ∃ items, t' = t.withItems items
  refl : ∀ t, pairs t t
  play : ∀ {s s'}, R s s' → s'.current.play = s.current.play
  size : ∀ {s s'}, R s s' → s'.world.tables.size = s.world.tables.size ∧ own s.world.tables.size
  reading : ∀ {s s'}, R s s' → ∀ (scope : Scope) (key : String),
    Related (Around R s s') (scope.read setup.host key) (scope.read setup.host key)
  opening : ∀ {s s'}, R s s' → ∀ vars,
    Around R s s' (s.world.newTable vars).2 (s'.world.newTable vars).2
  start : ∀ {s s' t t'}, R s s' → pairs t t' → ∀ name args params,
    R (s.push (.startTask t name args params)) (s'.push (.startTask t' name args params))
  finish : ∀ {s s' t t'}, R s s' → pairs t t' → ∀ result,
    R (s.push (.finishTask t (some result))) (s'.push (.finishTask t' (some result)))
  completion : ∀ {s s' t t'}, R s s' → pairs t t' → ∀ result,
    R (s.afterCompletion t result) (s'.afterCompletion t' result)
  running : ∀ {s s' t t' scope params command}, R s s' → pairs t t' →
    (∀ i, Scope.owner? scope = some i → own i) →
    setup.registry.bind t.command params = .ok command →
    Related (Around R s s') (command.run setup.host scope t) (command.run setup.host scope t')
  dispatching : ∀ {s s' t t' scope params command}, R s s' → pairs t t' →
    (∀ i, Scope.owner? scope = some i → own i) →
    setup.registry.bind t.command params = .ok command → ∀ name future,
    R (s.afterDispatch t name
        ((command.run setup.host scope t).run (s.deferring future (.command command scope t))))
      (s'.afterDispatch t' name
        ((command.run setup.host scope t').run (s'.deferring future (.command command scope t'))))

/-- What the task itself binds in the scope goes to owned tables, unless it names a module. -/
def Owned (own : Nat → Prop) (R : RunState σ → RunState σ → Prop) (t : Task) (outer : Scope) :
    Prop :=
  ∀ s s', R s s' → s.current.play.module? t.command = none →
    ∀ i, Scope.owner? outer = some i → own i

/-- Both calls of a task in an owned scope do the same. -/
def Calls (own : Nat → Prop) (R : RunState σ → RunState σ → Prop)
    (call : Task → Scope → Step σ Bool) : Prop :=
  ∀ sub outer, (∀ i, Scope.owner? outer = some i → own i) →
    Related R (call sub outer).run (call sub outer).run

section

variable {R : RunState σ → RunState σ → Prop}

theorem related_getThen {f g : RunState σ → Step σ α}
    (h : ∀ s s', R s s' → Related R (f s).run (g s').run) :
    Related R (get >>= f).run (get >>= g).run := fun s s' hs => h s s' hs s s' hs

theorem related_inWorldThen {β : Type} {z z' : RunM σ β} {f g : β → Step σ α} {Q : β → Prop}
    (h : ∀ s s', R s s' → Related (Around R s s') z z') (hQ : Answers z Q)
    (hf : ∀ a, Q a → Related R (f a).run (g a).run) :
    Related R (inWorld z >>= f).run (inWorld z' >>= g).run := by
  intro s s' hs
  obtain ⟨hanswer, hworld⟩ := h s s' hs s.world s'.world hs
  change ((f (z.run s.world).1).run.run _).1 = ((g (z'.run s'.world).1).run.run _).1 ∧
    R _ ((g (z'.run s'.world).1).run.run _).2
  rw [← hanswer]
  exact hf _ (hQ s.world) _ _ hworld

theorem related_anyChanged {run run' : α → Step σ Bool} (as : List α)
    (hrun : ∀ a, Related R (run a).run (run' a).run) :
    Related R (anyChanged run as).run (anyChanged run' as).run := by
  induction as with
  | nil => exact .pureExcept _
  | cons a as ih => exact (hrun a).bindExcept fun _ => ih.bindExcept fun _ => .pureExcept _

end

namespace KeptBySteps

variable {setup : Setup σ} {own : Nat → Prop} {pairs : Task → Task → Prop}
  {R : RunState σ → RunState σ → Prop} {t t' : Task} {scope outer : Scope}
  {params : Vars} {command : Command} {call : Task → Scope → Step σ Bool}
  (h : KeptBySteps setup own pairs R)

include h

theorem related_fail (ht : pairs t t') (name args : String) (cause : Error) :
    Related R (reportFailure t name args cause >>= fun _ => failTask (α := α) name cause).run
      (reportFailure t' name args cause >>= fun _ => failTask (α := α) name cause).run := by
  intro s s' hs
  refine ⟨?_, h.finish (h.start hs ht name args []) ht _⟩
  change Except.error (Stop.failed (cause.inTask s.current.play.name name)) =
    Except.error (Stop.failed (cause.inTask s'.current.play.name name))
  rw [h.play hs]

theorem related_runCommand (ht : pairs t t') (hown : ∀ i, scope.owner? = some i → own i)
    (hbind : setup.registry.bind t.command params = .ok command) (name : String) :
    Related R (runCommand setup t name command scope).run
      (runCommand setup t' name command scope).run := by
  intro s s' hs
  obtain ⟨hanswer, hworld⟩ := h.running hs ht hown hbind s.world s'.world hs
  rw [run_runCommand, run_runCommand]
  dsimp only
  rw [← hanswer, h.play hs]
  exact ⟨rfl, h.completion hworld ht _⟩

theorem related_performing (ht : pairs t t') (hown : ∀ i, scope.owner? = some i → own i)
    (hbind : setup.registry.bind t.command params = .ok command) (name : String) :
    Related R (performing setup t name command scope).run
      (performing setup t' name command scope).run := by
  obtain ⟨items, rfl⟩ := h.items ht
  have hfuture : futureName? (t.withItems items) name = futureName? t name := rfl
  unfold performing
  rw [hfuture]
  cases futureName? t name with
  | none => exact h.related_runCommand ht hown hbind name
  | some future =>
    have hdispatch : Related R (dispatch setup t name future command scope).run
        (dispatch setup (t.withItems items) name future command scope).run := by
      intro s s' hs
      rw [run_dispatch, run_dispatch]
      exact ⟨rfl, h.dispatching hs ht hown hbind name future⟩
    exact hdispatch.bindExcept fun _ => .pureExcept _

theorem related_newTableThen {f g : Nat → Step σ α} (vars : Vars)
    (hf : ∀ i, own i → Related R (f i).run (g i).run) :
    Related R (newTable vars >>= f).run (newTable vars >>= g).run := by
  intro s s' hs
  obtain ⟨hsize, hown⟩ := h.size hs
  change ((f s.world.tables.size).run.run _).1 = ((g s'.world.tables.size).run.run _).1 ∧
    R _ ((g s'.world.tables.size).run.run _).2
  rw [hsize]
  exact hf _ hown _ _ (h.opening hs vars)

theorem related_closing {x y : Step σ Bool} (ht : pairs t t') (hxy : Related R x.run y.run)
    (name : String) :
    Related R (outcome x >>= closing t name).run (outcome y >>= closing t' name).run := by
  intro s s' hs
  obtain ⟨hanswer, hstate⟩ := hxy s s' hs
  rcases hx : x.run.run s with ⟨o, v⟩
  rcases hy : y.run.run s' with ⟨o', v'⟩
  rw [hx, hy] at hanswer hstate
  obtain rfl : o = o' := hanswer
  rw [run_closing t name hx, run_closing t' name hy]
  rcases o with (cause | _) | changed
  · refine ⟨?_, h.finish hstate ht _⟩
    change Except.error (Stop.failed (cause.inTask v.current.play.name name)) =
      Except.error (Stop.failed (cause.inTask v'.current.play.name name))
    rw [h.play hstate]
  · exact ⟨rfl, hstate⟩
  · exact ⟨rfl, h.completion hstate ht _⟩

theorem related_callModule (hcall : Calls own R call) (ht : pairs t t') (prepared : Prepared)
    (m : Module) (scope : Scope) :
    Related R (callModule call t prepared m scope).run
      (callModule call t' prepared m scope).run := by
  rw [callModule_eq, callModule_eq]
  apply h.related_newTableThen
  intro i hi
  refine h.related_closing ht (related_anyChanged m.tasks fun sub => hcall sub _ ?_) prepared.name
  rintro j ⟨⟩
  exact hi

theorem related_starting (hcall : Calls own R call) (ht : pairs t t')
    {r : Except Unprepared Prepared} {play : Play}
    (hown : play.module? t.command = none → ∀ i, scope.owner? = some i → own i)
    (hbound : ∀ prepared, r = .ok prepared → t.Bound setup.registry play prepared) :
    Related R (starting setup call t scope r).run (starting setup call t' scope r).run := by
  cases r with
  | error u => exact h.related_fail ht u.name u.args u.cause
  | ok prepared =>
    have hstart : Related R
        (emit (.startTask t prepared.name prepared.args prepared.params) : Step σ Unit).run
        (emit (.startTask t' prepared.name prepared.args prepared.params)).run :=
      fun s s' hs => ⟨rfl, h.start hs ht _ _ _⟩
    apply hstart.bindExcept
    intro _
    unfold acting
    cases haction : prepared.action with
    | call m => exact h.related_callModule hcall ht prepared m scope
    | run command =>
      obtain ⟨hmodule, hbind⟩ := (hbound prepared rfl).run command haction
      exact h.related_performing ht (hown hmodule) hbind prepared.name

theorem related_runOnce (hcall : Calls own R call) (ht : pairs t t') (hown : Owned own R t outer) :
    Related R (runOnce setup call t outer).run (runOnce setup call t' outer).run := by
  obtain ⟨items, rfl⟩ := h.items ht
  have hother : runOnce setup call (t.withItems items) outer = get >>= fun s =>
      inWorld (t.prepare setup s.current.play (t.scope outer)) >>=
        starting setup call (t.withItems items) (t.scope outer) := runOnce_eq ..
  rw [runOnce_eq, hother]
  apply related_getThen
  intro s s' hs
  rw [h.play hs]
  have hscope : s.current.play.module? t.command = none →
      ∀ i, (t.scope outer).owner? = some i → own i := hown s s' hs
  refine related_inWorldThen (fun v v' hv => Task.related_prepare rfl fun key _ =>
    h.reading hv _ key) (Task.bound_of_prepare setup s.current.play t (t.scope outer)) ?_
  exact fun r hr => h.related_starting hcall ht hscope hr

theorem related_runItem (hcall : Calls own R call) (ht : pairs t t') (outer : Scope)
    (item : Value) :
    Related R (runItem setup call t outer item).run (runItem setup call t' outer item).run := by
  apply h.related_newTableThen
  intro i hi
  refine h.related_runOnce hcall ht fun _ _ _ _ j hj => ?_
  cases hj
  exact hi

theorem related_runTaskWith (hcall : Calls own R call)
    (hown : t.items = none → Owned own R t outer) :
    Related R (runTaskWith setup call t outer).run (runTaskWith setup call t outer).run := by
  rw [runTaskWith_eq]
  refine related_inWorldThen (Q := fun _ => True) (fun s s' hs => Task.related_due fun key _ =>
    h.reading hs _ key) (fun _ => trivial) ?_
  rintro (e | _ | _) -
  · exact h.related_fail (h.refl t) t.name "" (.expr e)
  · exact .pureExcept _
  · change Related R (runDue setup call t outer).run (runDue setup call t outer).run
    unfold runDue
    cases hitems : t.items with
    | none => exact h.related_runOnce hcall (h.refl t) (hown hitems)
    | some items => exact related_anyChanged items (h.related_runItem hcall (h.refl t) outer)

theorem calls_runTask (depth : Nat) : Calls own R (runTask setup depth) := by
  induction depth with
  | zero => exact fun _ _ _ _ _ hs => ⟨rfl, hs⟩
  | succ depth ih => exact fun _ _ hown => h.related_runTaskWith ih fun _ _ _ _ _ => hown

theorem related_runTask (depth : Nat) (hown : t.items = none → Owned own R t outer) :
    Related R (runTask setup depth t outer).run (runTask setup depth t outer).run := by
  cases depth with
  | zero => exact fun _ _ hs => ⟨rfl, hs⟩
  | succ depth => exact h.related_runTaskWith (h.calls_runTask depth) hown

end KeptBySteps

end Runner

end PlaybookRunner
