import PlaybookRunner.Proofs.Parts

/-!
# The reports of a task

A task reports in closed turns, whether it ends well or stops the run, and a run
that goes too deep leaves one open call for each level of module calls. One lemma
for each part of running a task, and the induction on the depth.
-/

namespace PlaybookRunner

variable {σ : Type} {host : Host σ}

open Transcript

namespace Task

variable {P : World σ → Prop} {look : String → RunM σ (Option Value)}

theorem agree_expandVars (hlook : ∀ k, Agree P (look k) (look k)) (vars : Vars) :
    Agree P (expandVars look vars) (expandVars look vars) := by
  induction vars with
  | nil => exact .pure _
  | cons entry rest ih =>
    obtain ⟨key, value⟩ := entry
    cases value with
    | string text =>
      apply (Expr.related_expandTemplate text fun k _ => hlook k).bind
      intro o
      cases o with
      | error e => exact .pure _
      | ok expanded => exact ih.bind fun _ => .pure _
    | _ => exact ih.bind fun _ => .pure _

theorem agree_holds (hlook : ∀ k, Agree P (look k) (look k)) (condition : String) :
    Agree P (holds look condition) (holds look condition) := by
  unfold holds
  dsimp only
  split
  · exact (Expr.related_run _ fun k _ => hlook k).bind fun _ => .pure _
  · exact (Expr.related_run _ fun k _ => hlook k).bind fun _ => .pure _

/-- Whether the condition of a task holds; a task without one is due. -/
def due (setup : Setup σ) (outer : Scope) (t : Task) : RunM σ (Except ExprError Bool) :=
  match t.condition? with
  | none => return .ok true
  | some condition => holds ((t.scope outer).read setup.host) condition

theorem agree_due {setup : Setup σ} (t : Task) {outer : Scope}
    (hread : ∀ k, Agree P ((t.scope outer).read setup.host k) ((t.scope outer).read setup.host k)) :
    Agree P (t.due setup outer) (t.due setup outer) := by
  unfold due
  cases t.condition? with
  | none => exact .pure _
  | some condition => exact agree_holds hread condition

theorem agree_prepare {setup : Setup σ} (play : Play) (t : Task) {scope : Scope}
    (hread : ∀ k, Agree P (scope.read setup.host k) (scope.read setup.host k)) :
    Agree P (t.prepare setup play scope) (t.prepare setup play scope) := by
  apply (Expr.related_expandTemplate t.name fun k _ => hread k).bind
  intro o
  cases o with
  | error e => exact .pure _
  | ok name =>
    apply (Expr.related_expandTemplate t.args fun k _ => hread k).bind
    intro o
    cases o with
    | error e => exact .pure _
    | ok args =>
      apply (agree_expandVars hread t.vars).bind
      intro o
      cases o with
      | error e => exact .pure _
      | ok vars =>
        dsimp only
        cases bindAction setup.registry play t name args vars <;> exact .pure _

/-- A task is prepared as a call only if it names a module of the play and does
not run deferred. -/
def Calls (play : Play) (t : Task) (prepared : Prepared) : Prop :=
  ∀ m, prepared.action = .call m → play.module? t.command = some m ∧ t.isDeferred = false

theorem calls_of_bindAction {registry : Registry} {play : Play} {t : Task} {name args : String}
    {vars : Vars} {prepared : Prepared}
    (h : bindAction registry play t name args vars = .ok prepared) : Calls play t prepared := by
  intro m hcall
  unfold bindAction at h
  split at h
  next m' hm =>
    split at h
    next => cases h
    next hdeferred =>
      split at h
      next => cases h
      next =>
        cases h
        cases hcall
        exact ⟨hm, by simpa using hdeferred⟩
  next =>
    split at h
    next => cases h
    next =>
      split at h
      next => cases h
      next =>
        cases h
        cases hcall

theorem calls_of_prepare (setup : Setup σ) (play : Play) (t : Task) (scope : Scope) :
    Answers (t.prepare setup play scope) fun o =>
      ∀ prepared, o = .ok prepared → Calls play t prepared := by
  apply Answers.bind
  intro o
  cases o with
  | error e => exact .pure (by simp)
  | ok name =>
    apply Answers.bind
    intro o
    cases o with
    | error e => exact .pure (by simp)
    | ok args =>
      apply Answers.bind
      intro o
      cases o with
      | error e => exact .pure (by simp)
      | ok vars =>
        dsimp only
        cases hbound : bindAction setup.registry play t name args vars with
        | error cause => exact .pure (by simp)
        | ok bound =>
          apply Answers.pure
          rintro _ ⟨⟩
          exact calls_of_bindAction hbound

end Task

/-- How a part that takes some turns ends: with closed turns, or with open calls. -/
def Ran {α : Type} (p : Play) (calls : Nat) (turns : List Task) :
    Except Stop α → List Event → Prop
  | .error .tooDeep, L => Cut p calls turns L
  | _, L => Brackets p turns L

/-- How the rest of a turn ends after its start. -/
def Finished {α : Type} (p : Play) (calls : Nat) (t : Task) : Except Stop α → List Event → Prop
  | .error .tooDeep, L => t.isDeferred = false ∧ Cut p calls (p.subturns t) L
  | _, L => ∃ inner result, Brackets p (p.subturns t) inner ∧ Finishes t inner result ∧
      L = inner ++ [.finishTask t result]

section

variable {α : Type} {p : Play} {n : Nat} {t : Task} {o : Except Stop α} {L : List Event}

theorem Ran.append_turns {as : List Task} (h : Ran p n as o L) (bs : List Task) :
    Ran p n (as ++ bs) o L := by
  rcases o with (e | _) | a
  · exact Brackets.append_turns h bs
  · exact Cut.append_turns h bs
  · exact Brackets.append_turns h bs

theorem Ran.after {as bs : List Task} {A : List Event} (hA : Brackets p as A)
    (h : Ran p n bs o L) : Ran p n (as ++ bs) o (A ++ L) := by
  rcases o with (e | _) | a
  · exact hA.append h
  · exact Cut.after hA h
  · exact hA.append h

/-- Fewer turns may be taken than there are. -/
theorem Ran.replicate {k l : Nat} (hkl : k ≤ l) (h : Ran p n (List.replicate k t) o L) :
    Ran p n (List.replicate l t) o L := by
  obtain ⟨m, rfl⟩ := Nat.exists_eq_add_of_le hkl
  rw [List.replicate_add]
  exact h.append_turns _

theorem Finished.ran (h : Finished p n t o L) (name args : String) (params : Vars) :
    Ran p (n + 1) [t] o (.startTask t name args params :: L) := by
  rcases o with (e | _) | a
  · obtain ⟨inner, result, hinner, hresult, rfl⟩ := h
    exact .single name args params hinner hresult
  · exact h.2.inCall h.1 name args params
  · obtain ⟨inner, result, hinner, hresult, rfl⟩ := h
    exact .single name args params hinner hresult

theorem Finished.direct {result : Option TaskResult} (hresult : Finishes t [] result)
    (ho : o ≠ .error .tooDeep) : Finished p n t o [.finishTask t result] := by
  rcases o with (e | _) | a
  · exact ⟨[], result, .nothing _, hresult, rfl⟩
  · exact absurd rfl ho
  · exact ⟨[], result, .nothing _, hresult, rfl⟩

end

theorem mem_addName {names : List String} {name other : String} :
    other ∈ addName names name ↔ other ∈ names ∨ other = name := by
  unfold addName
  split
  next h =>
    have hmem : name ∈ names := by simpa using h
    constructor
    · exact .inl
    · rintro (hother | rfl)
      · exact hother
      · exact hmem
  next => simp

theorem PlayState.mem_notify {c : PlayState} {t : Task} {name : String} :
    name ∈ (c.notify t).notified ↔ name ∈ c.notified ∨ name ∈ t.notify := by
  change name ∈ t.notify.foldl addName c.notified ↔ _
  induction t.notify generalizing c with
  | nil => simp
  | cons first rest ih =>
    rw [List.foldl_cons, ih (c := { c with notified := addName c.notified first }), mem_addName,
      List.mem_cons, or_assoc]

theorem PlayState.moves_finish (w : World σ) (c : PlayState) (t : Task) (result : TaskResult) :
    c.Moves host w [.finishTask t (some result)]
      (if !result.failed && result.changed then c.notify t else c) := by
  have hnotices : notices [.finishTask t (some result)] =
      if !result.failed && result.changed then t.notify else [] := List.flatMap_singleton ..
  by_cases hnotify : !result.failed && result.changed
  · rw [if_pos hnotify] at hnotices ⊢
    refine ⟨rfl, ⟨[], (List.append_nil _).symm, rfl, by simp⟩, fun name => ?_⟩
    rw [hnotices, mem_notify]
  · rw [if_neg hnotify] at hnotices ⊢
    refine ⟨rfl, ⟨[], (List.append_nil _).symm, rfl, by simp⟩, fun name => ?_⟩
    simp [hnotices]

namespace Runner

open Step

/-- Runs a task that is due: for each of its items, or once. -/
def runDue (setup : Setup σ) (call : Task → Scope → Step σ Bool) (t : Task) (outer : Scope) :
    Step σ Bool :=
  match t.items with
  | none => runOnce setup call t outer
  | some items => anyChanged (runItem setup call t outer) items

/-- A task is run if its condition can be evaluated and holds. -/
theorem runTaskWith_eq {setup : Setup σ} (call : Task → Scope → Step σ Bool) (t : Task)
    (outer : Scope) :
    runTaskWith setup call t outer = (do
      match ← inWorld (t.due setup outer) with
      | .ok due => if due then runDue setup call t outer else return false
      | .error e =>
        reportFailure t t.name "" (.expr e)
        failTask t.name (.expr e)) := by
  unfold runTaskWith Task.due runDue
  cases t.condition? <;> rfl

variable {p : Play} {n : Nat} {t : Task}

theorem adds_reportFailure (t : Task) (name args : String) (cause : Error) :
    Adds host p (reportFailure t name args cause) fun o L => (∃ a, o = .ok a) ∧ L =
      [.startTask t name args [], .finishTask t (some (TaskResult.ofFailure cause.message))] := by
  apply (Adds.emit rfl rfl).next
  intro _
  exact (Adds.emit rfl rfl).mono fun o L h => ⟨h.1, by rw [h.2]; rfl⟩

theorem adds_failTask {α : Type} (name : String) (cause : Error) :
    Adds host p (failTask (α := α) name cause) fun o L => (∃ e, o = .error (.failed e)) ∧ L = [] :=
  .getThen fun _ _ => .throw ⟨⟨_, rfl⟩, rfl⟩

/-- A task that fails before it could start takes one turn. -/
theorem adds_fail {α : Type} (t : Task) (name args : String) (cause : Error) :
    Adds host p (reportFailure t name args cause >>= fun _ => failTask (α := α) name cause)
      fun o L => (∃ e, o = .error (.failed e)) ∧ Brackets p [t] L ∧ Opens t L := by
  apply (adds_reportFailure t name args cause).next
  intro _
  apply (adds_failTask name cause).mono
  rintro _ _ ⟨he, rfl⟩
  exact ⟨he, .single name args [] (.nothing _) fun _ => rfl, name, args, [], _, rfl⟩

/-- The report of a result notifies the handlers that its event speaks of. -/
theorem adds_finish (t : Task) (result : TaskResult) :
    Adds host p (do
      emit (.finishTask t (some result))
      if !result.failed && result.changed then
        modify fun s => { s with current := s.current.notify t }) fun o L =>
      (∃ a, o = .ok a) ∧ L = [.finishTask t (some result)] := by
  intro s _
  have hmoves : s.current.Moves host s.world _ _ := s.current.moves_finish s.world t result
  by_cases hnotify : !result.failed && result.changed
  · rw [if_pos hnotify] at hmoves
    simp only [if_pos hnotify]
    exact ⟨_, ⟨⟨Array.toList_push, .refl _⟩, hmoves⟩, ⟨(), rfl⟩, rfl⟩
  · rw [if_neg hnotify] at hmoves
    simp only [if_neg hnotify]
    exact ⟨_, ⟨⟨Array.toList_push, .refl _⟩, hmoves⟩, ⟨(), rfl⟩, rfl⟩

/-- A change of the world that touches no future adds no event. -/
theorem adds_quiet {change : World σ → World σ} (hfutures : ∀ w, (change w).futures = w.futures)
    (hexecuted : ∀ w, (change w).executed = w.executed) :
    Adds host p (inWorld (modify change)) fun o L => (∃ a, o = .ok a) ∧ L = [] :=
  .inWorld fun w => ⟨[], .quiet (hfutures w) (hexecuted w)⟩

theorem adds_newTable (vars : Vars) :
    Adds host p (newTable vars) fun o L => (∃ a, o = .ok a) ∧ L = [] :=
  .inWorld fun _ => ⟨[], .quiet rfl rfl⟩

theorem adds_complete (t : Task) (result : TaskResult) :
    Adds host p (complete t result) fun o L =>
      (∃ a, o = .ok a) ∧ L = [.finishTask t (some result)] := by
  have hrecord : Adds host p (inWorld (modify (World.record t result))) fun o L =>
      (∃ a, o = .ok a) ∧ L = [] := adds_quiet (fun _ => rfl) fun _ => rfl
  apply Adds.getThen
  intro s _
  dsimp only
  cases t.register with
  | none =>
    apply hrecord.next
    intro _
    exact adds_finish t result
  | some name =>
    apply (adds_quiet (by simp) (by simp)).next
    intro _
    apply hrecord.next
    intro _
    exact adds_finish t result

variable {setup : Setup σ}

/-- A dispatched command settles its future before anything else is reported. -/
theorem adds_dispatch (t : Task) (name future : String) (command : Command) (scope : Scope) :
    Adds setup.host p (dispatch setup t name future command scope) fun o L =>
      (∃ a, o = .ok a) ∧ L = [.finishTask t none] := by
  intro s _
  let added := s.world.addFuture s.current.table future (.command command scope t)
  have hf : added.2.futures[added.1]? = some ⟨future, .pending (.command command scope t)⟩ := by
    change (s.world.futures.push _)[s.world.futures.size]? = _
    exact Array.getElem?_push_size
  obtain ⟨outcome, ho, hsettled⟩ : ∃ outcome,
      (Job.command command scope t).Yields setup.host outcome ∧ _ :=
    World.Later.force_settles hf rfl
  have hlater : s.world.Later setup.host ((Future.force setup.host added.1).run added.2).2 :=
    .trans ⟨[], .register ..⟩ (.force added.1 added.2)
  refine ⟨_, ⟨⟨Array.toList_push, hlater⟩, rfl, ⟨[⟨t, name, added.1⟩], rfl, rfl, ?_⟩, ?_⟩,
    ⟨(), rfl⟩, rfl⟩
  · intro d hd
    obtain rfl := List.mem_singleton.mp hd
    exact ⟨_, command, scope, outcome, hsettled, rfl, ho⟩
  · intro handler
    simp [notices]
    rfl

theorem adds_runCommand (ht : t.isDeferred = false) (name : String) (command : Command)
    (scope : Scope) :
    Adds setup.host p (runCommand setup t name command scope) (Finished p n t) := by
  have hfinishes (result : TaskResult) : Finishes t [] (some result) := by simp [Finishes, ht]
  have hcommand : Adds setup.host p (inWorld (command.run setup.host scope t)) fun o L =>
      (∃ a, o = .ok a) ∧ L = [] := .inWorld fun w =>
    (Command.agree_runWith (World.Later.aboutFutures w).kept (World.Later.agree_force w) scope t
      command).keeps (.refl w)
  apply hcommand.next
  intro o
  cases o with
  | ok result =>
    apply (adds_complete t result).next
    intro _
    exact .pure (.direct (hfinishes result) (by simp))
  | error e =>
    apply (adds_complete t (Command.failureResult e)).next
    intro _
    apply (adds_failTask name (.command e)).mono
    rintro _ _ ⟨⟨e, rfl⟩, rfl⟩
    exact .direct (hfinishes _) (by simp)

/-- Parts that take turns one after the other take them all together. -/
theorem adds_anyChanged {α : Type} {run : α → Step σ Bool} {turns : α → List Task} (as : List α)
    (hrun : ∀ a, Adds host p (run a) (Ran p n (turns a))) :
    Adds host p (anyChanged run as) (Ran p n (as.flatMap turns)) := by
  induction as with
  | nil => exact .pure .nil
  | cons a as ih =>
    rw [List.flatMap_cons]
    apply (hrun a).bind
    · intro first L hL
      apply ih.bind
      · intro others L' hL'
        apply Adds.pure
        rw [List.append_nil]
        exact hL.append hL'
      · intro e L' hL'
        exact hL'.after hL
    · intro e L hL
      exact hL.append_turns _

theorem adds_callModule {call : Task → Scope → Step σ Bool} {m : Module}
    (hcall : ∀ sub outer, Adds host p (call sub outer) (Ran p n sub.turns))
    (hm : p.module? t.command = some m) (ht : t.isDeferred = false) (prepared : Prepared)
    (scope : Scope) : Adds host p (callModule call t prepared m scope) (Finished p n t) := by
  have hsubturns : p.subturns t = m.tasks.flatMap Task.turns := by
    simp [Play.subturns, Play.subtasks, hm]
  have hfinishes (inner : List Event) (result : TaskResult) : Finishes t inner (some result) := by
    simp [Finishes, ht]
  apply (adds_newTable prepared.params).next
  intro table
  apply (adds_anyChanged m.tasks fun sub => hcall sub (.table table :: scope)).outcome.bind
  · rintro o inner ⟨_, ⟨⟩, hinner⟩
    rw [← hsubturns] at hinner
    rcases o with (cause | _) | changed
    · apply Adds.next (Adds.emit rfl rfl)
      intro _
      apply (adds_failTask prepared.name cause).mono
      rintro _ _ ⟨⟨e, rfl⟩, rfl⟩
      exact ⟨inner, _, hinner, hfinishes inner _, rfl⟩
    · apply Adds.throw
      rw [List.nil_append, List.append_nil]
      exact ⟨ht, hinner⟩
    · apply (adds_complete t _).next
      intro _
      exact .pure ⟨inner, _, hinner, hfinishes inner _, rfl⟩
  · rintro e L ⟨o, ho, -⟩
    cases ho

theorem adds_prepare (t : Task) (scope : Scope) :
    Adds setup.host p (inWorld (t.prepare setup p scope)) fun o L =>
      (∃ r, o = .ok r ∧ ∀ prepared, r = .ok prepared → Task.Calls p t prepared) ∧ L = [] := by
  intro s _
  have hread (k : String) : Agree (s.world.Later setup.host) (scope.read setup.host k)
      (scope.read setup.host k) := Scope.agree_readWith (World.Later.agree_force s.world) scope k
  have hlater := (Task.agree_prepare p t hread).keeps (.refl s.world)
  exact ⟨[], ⟨⟨by simp, hlater⟩, .refl _ _⟩,
    ⟨_, rfl, Task.calls_of_prepare setup p t scope s.world⟩, rfl⟩

theorem adds_due (t : Task) (outer : Scope) :
    Adds setup.host p (inWorld (t.due setup outer)) fun o L => (∃ a, o = .ok a) ∧ L = [] := by
  have hread (w : World σ) (k : String) : Agree (w.Later setup.host)
      ((t.scope outer).read setup.host k) ((t.scope outer).read setup.host k) :=
    Scope.agree_readWith (World.Later.agree_force w) (t.scope outer) k
  exact .inWorld fun w => (t.agree_due (hread w)).keeps (.refl w)

theorem not_isDeferred {t : Task} {name : String} (h : futureName? t name = none) :
    t.isDeferred = false := by
  unfold futureName? at h
  cases hfuture : t.future with
  | some future => simp [hfuture] at h
  | none => simpa [Task.isDeferred, hfuture] using h

theorem isDeferred_of_futureName? {t : Task} {name future : String}
    (h : futureName? t name = some future) : t.isDeferred = true := by
  unfold futureName? at h
  cases hfuture : t.future with
  | some future => simp [Task.isDeferred, hfuture]
  | none =>
    have hasync : t.isAsync = true := by simp_all
    simp [Task.isDeferred, hasync]

theorem adds_runOnce {call : Task → Scope → Step σ Bool}
    (hcall : ∀ sub outer, Adds setup.host p (call sub outer) (Ran p n sub.turns)) (t : Task)
    (outer : Scope) : Adds setup.host p (runOnce setup call t outer) fun o L =>
      Ran p (n + 1) [t] o L ∧ Opens t L := by
  apply Adds.getThen
  intro s hs
  rw [hs]
  apply (adds_prepare t (t.scope outer)).bind
  · rintro r _ ⟨⟨_, ⟨⟩, hcalls⟩, rfl⟩
    cases r with
    | error u =>
      apply (adds_fail t u.name u.args u.cause).mono
      rintro _ L ⟨⟨e, rfl⟩, hL, hopens⟩
      exact ⟨hL, hopens⟩
    | ok prepared =>
      -- From here on the task has started, and what follows finishes its turn.
      apply Adds.next (Adds.emit rfl rfl)
      intro _
      refine Adds.mono (Q := Finished p n t) ?_ fun o L h =>
        ⟨h.ran prepared.name prepared.args prepared.params, _, _, _, L, rfl⟩
      cases haction : prepared.action with
      | call m =>
        obtain ⟨hm, ht⟩ := hcalls prepared rfl m haction
        exact adds_callModule hcall hm ht prepared (t.scope outer)
      | run command =>
        dsimp only
        cases hfuture : futureName? t prepared.name with
        | none => exact adds_runCommand (not_isDeferred hfuture) prepared.name command _
        | some future =>
          apply (adds_dispatch t prepared.name future command (t.scope outer)).next
          intro _
          exact .pure (.direct ⟨isDeferred_of_futureName? hfuture, rfl⟩ (by simp))
  · rintro e L ⟨⟨r, hr, -⟩, -⟩
    cases hr

theorem adds_runItem {call : Task → Scope → Step σ Bool}
    (hcall : ∀ sub outer, Adds setup.host p (call sub outer) (Ran p n sub.turns)) (t : Task)
    (outer : Scope) (item : Value) :
    Adds setup.host p (runItem setup call t outer item) fun o L =>
      Ran p (n + 1) [t] o L ∧ Opens t L := by
  apply (adds_newTable [("item", item)]).next
  intro table
  exact adds_runOnce hcall t (.table table :: outer)

theorem adds_runDue {call : Task → Scope → Step σ Bool}
    (hcall : ∀ sub outer, Adds setup.host p (call sub outer) (Ran p n sub.turns)) (t : Task)
    (outer : Scope) : Adds setup.host p (runDue setup call t outer) (Ran p (n + 1) t.turns) := by
  unfold runDue Task.turns
  cases t.items with
  | none => exact (adds_runOnce hcall t outer).mono fun _ _ h => h.1
  | some items =>
    have hitem (item : Value) : Adds setup.host p (runItem setup call t outer item)
        (Ran p (n + 1) [t]) := (adds_runItem hcall t outer item).mono fun _ _ h => h.1
    apply (adds_anyChanged items hitem).mono
    intro o L h
    have hflat : items.flatMap (fun _ => [t]) = List.replicate items.length t := by
      rw [← List.map_eq_flatMap, List.map_const']
    rw [hflat] at h
    exact Ran.replicate (Nat.le_max_right _ _) h

theorem adds_runTaskWith {call : Task → Scope → Step σ Bool}
    (hcall : ∀ sub outer, Adds setup.host p (call sub outer) (Ran p n sub.turns)) (t : Task)
    (outer : Scope) :
    Adds setup.host p (runTaskWith setup call t outer) (Ran p (n + 1) t.turns) := by
  rw [runTaskWith_eq]
  apply (adds_due t outer).next
  rintro (e | _ | _)
  · -- A condition that fails takes one turn, however many items there are.
    apply (adds_fail t t.name "" (.expr e)).mono
    rintro _ L ⟨⟨cause, rfl⟩, hL, -⟩
    exact Ran.replicate (k := 1) (o := .error (.failed cause)) (Nat.le_max_left _ _) hL
  · exact .pure (.nothing _)
  · exact adds_runDue hcall t outer

theorem adds_runTask (setup : Setup σ) (p : Play) (depth : Nat) (t : Task) (outer : Scope) :
    Adds setup.host p (runTask setup depth t outer) (Ran p depth t.turns) := by
  induction depth generalizing t outer with
  | zero => exact .throw (Cut.start t.mem_turns)
  | succ depth ih => exact adds_runTaskWith ih t outer

end Runner

end PlaybookRunner
