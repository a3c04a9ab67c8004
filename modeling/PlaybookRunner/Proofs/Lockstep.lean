import PlaybookRunner.Proofs.Mirrors

/-!
# Runs in lockstep

Two plays that share their tasks are run in mirrored worlds. Each part of the one run
ends as the part of the other does, adds the same events and records, and leaves worlds
that mirror each other again: tables and futures that both runs add correspond from
then on.
-/

namespace PlaybookRunner

variable {σ α β : Type}

/-- What a part of a play adds to a run. -/
structure Part where
  events : List Event := []
  recorded : List (Task × TaskResult) := []
  notified : List String := []
  ofTasks : ∀ e ∈ events, e.OfTask := by simp

namespace Part

instance : Append Part where
  append P Q :=
    { events := P.events ++ Q.events
      recorded := P.recorded ++ Q.recorded
      notified := P.notified ++ Q.notified
      ofTasks := fun e he => (List.mem_append.mp he).elim (P.ofTasks e) (Q.ofTasks e) }

theorem events_append (P Q : Part) : (P ++ Q).events = P.events ++ Q.events := rfl

theorem recorded_append (P Q : Part) : (P ++ Q).recorded = P.recorded ++ Q.recorded := rfl

theorem notified_append (P Q : Part) : (P ++ Q).notified = P.notified ++ Q.notified := rfl

def start (t : Task) (name args : String) (params : Vars) : Part where
  events := [.startTask t name args params]
  ofTasks := by simp [Event.OfTask]

def report (t : Task) (result : TaskResult) : Part where
  events := [.finishTask t (some result)]
  recorded := [(t, result)]
  notified := if !result.failed && result.changed then t.notify else []
  ofTasks := by simp [Event.OfTask]

def dispatch (t : Task) (result : TaskResult) : Part where
  events := [.finishTask t none]
  recorded := [(t, result)]
  ofTasks := by simp [Event.OfTask]

/-- A result is reported that is not recorded now. -/
def finish (t : Task) (result : TaskResult) : Part where
  events := [.finishTask t (some result)]
  ofTasks := by simp [Event.OfTask]

/-- A deferred task has settled well. -/
def await (t : Task) (result : TaskResult) : Part where
  events := [.finishTask t (some result)]
  notified := if result.changed then t.notify else []
  ofTasks := by simp [Event.OfTask]

/-- The last report of a module call. -/
def close (t : Task) : Except Stop Bool → Part
  | .ok changed => .report t (if changed then TaskResult.ofChange else TaskResult.ok)
  | .error .tooDeep => {}
  | .error (.failed cause) => .finish t (TaskResult.ofFailure cause.message)

end Part

/-- Deferred tasks of two runs whose futures correspond. -/
structure Deferred.Mirrors (π : Pairing) (d d' : Deferred) : Prop where
  task : d.task = d'.task
  name : d.name = d'.name
  future : π.futures d.future d'.future

namespace RunState

variable {s u v : RunState σ} {P Q : Part} {ds es : List Deferred}

/-- The run reports and records a part. -/
structure Logs (s : RunState σ) (P : Part) (v : RunState σ) : Prop where
  events : v.events.toList = s.events.toList ++ P.events
  recorded : v.world.recorded.toList = s.world.recorded.toList ++ P.recorded
  futures : s.world.futures.toList <+: v.world.futures.toList

/-- The running play gains a part and some deferred tasks. -/
structure Gains (s : RunState σ) (P : Part) (ds : List Deferred) (v : RunState σ) : Prop
    extends Logs s P v where
  notified : ∀ name, name ∈ v.current.notified ↔
    name ∈ s.current.notified ∨ name ∈ P.notified
  deferred : v.current.deferred = s.current.deferred ++ ds

theorem Logs.refl (s : RunState σ) : s.Logs {} s where
  events := (List.append_nil _).symm
  recorded := (List.append_nil _).symm
  futures := List.prefix_refl _

theorem Logs.trans (h : s.Logs P u) (h' : u.Logs Q v) : s.Logs (P ++ Q) v where
  events := by rw [h'.events, h.events, List.append_assoc, Part.events_append]
  recorded := by rw [h'.recorded, h.recorded, List.append_assoc, Part.recorded_append]
  futures := h.futures.trans h'.futures

theorem Gains.trans (h : s.Gains P ds u) (h' : u.Gains Q es v) :
    s.Gains (P ++ Q) (ds ++ es) v where
  toLogs := h.toLogs.trans h'.toLogs
  notified name := by
    rw [h'.notified, h.notified, Part.notified_append, List.mem_append, or_assoc]
  deferred := by rw [h'.deferred, h.deferred, List.append_assoc]

/-- Nothing else than the log changes for the running play. -/
theorem Logs.gains (h : s.Logs P v) (hcurrent : v.current = s.current) (hP : P.notified = []) :
    s.Gains P [] v where
  toLogs := h
  notified name := by simp [hcurrent, hP]
  deferred := by rw [hcurrent, List.append_nil]

theorem Gains.refl (s : RunState σ) : s.Gains {} [] s := (Logs.refl s).gains rfl rfl

theorem logs_world {w : World σ} (hrecorded : w.recorded = s.world.recorded)
    (hfutures : w.futures = s.world.futures) : s.Logs {} { s with world := w } where
  events := (List.append_nil _).symm
  recorded := by
    change w.recorded.toList = _
    rw [hrecorded]
    exact (List.append_nil _).symm
  futures := hfutures ▸ List.prefix_refl w.futures.toList

theorem gains_world {w : World σ} (hrecorded : w.recorded = s.world.recorded)
    (hfutures : w.futures = s.world.futures) : s.Gains {} [] { s with world := w } :=
  (logs_world hrecorded hfutures).gains rfl rfl

theorem gains_start (t : Task) (name args : String) (params : Vars) (s : RunState σ) :
    s.Gains (.start t name args params) [] (s.push (.startTask t name args params)) :=
  Logs.gains ⟨Array.toList_push, (List.append_nil _).symm, List.prefix_refl _⟩ rfl rfl

theorem gains_finish (t : Task) (result : TaskResult) (s : RunState σ) :
    s.Gains (.finish t result) [] (s.push (.finishTask t (some result))) :=
  Logs.gains ⟨Array.toList_push, (List.append_nil _).symm, List.prefix_refl _⟩ rfl rfl

theorem gains_report (t : Task) (result : TaskResult) (s : RunState σ) :
    s.Gains (.report t result) [] (s.report t result) where
  events := Array.toList_push
  recorded := Array.toList_push
  futures := List.prefix_refl _
  notified name := by
    unfold report Part.report
    dsimp only
    split
    next => exact PlayState.mem_notify
    next => exact (or_iff_left List.not_mem_nil).symm
  deferred := by
    unfold report
    dsimp only
    split <;> exact (List.append_nil _).symm

/-- The report of an awaited task may notify. -/
theorem gains_afterAwait (t : Task) (result : TaskResult) (s : RunState σ) :
    s.Gains (.await t result) [] (s.afterAwait t result) where
  events := Array.toList_push
  recorded := (List.append_nil _).symm
  futures := List.prefix_refl _
  notified name := by
    unfold afterAwait Part.await
    dsimp only
    split
    next => exact PlayState.mem_notify
    next => exact (or_iff_left List.not_mem_nil).symm
  deferred := by
    unfold afterAwait
    dsimp only
    split <;> exact (List.append_nil _).symm

theorem gains_afterCompletion (t : Task) (result : TaskResult) (s : RunState σ) :
    s.Gains (.report t result) [] (s.afterCompletion t result) := by
  unfold afterCompletion
  cases t.register with
  | none => exact gains_report t result s
  | some name =>
    have hset : s.Gains {} [] { s with
        world := s.world.set [.table s.current.table] name result.registered.toValue } :=
      gains_world rfl (World.futures_set _ _ _ _)
    exact hset.trans (gains_report t result _)

section

variable (t : Task) (name future : String) (job : Job)
  {done : Except CommandError TaskResult × World σ}

theorem gains_afterDispatch (hfutures : done.2.futures = (s.deferring future job).futures)
    (hrecorded : done.2.recorded = s.world.recorded) :
    s.Gains (.dispatch t (Command.resultOf done.1)) [⟨t, name, s.world.futures.size⟩]
      (s.afterDispatch t name done) where
  events := Array.toList_push
  recorded := by
    change (done.2.recorded.push _).toList = _
    rw [hrecorded]
    exact Array.toList_push
  notified other := (or_iff_left List.not_mem_nil).symm
  deferred := rfl
  futures := by
    rw [futures_afterDispatch s t name future job hfutures, Array.toList_push]
    exact List.prefix_append _ _

theorem settled_afterDispatch (hs : s.world.Settled)
    (hfutures : done.2.futures = (s.deferring future job).futures) :
    (s.afterDispatch t name done).world.Settled := by
  refine hs.push (fun job => ?_) (futures_afterDispatch s t name future job hfutures)
  cases done.1 <;> simp [Except.mapError, Progress.ofOutcome]

/-- The future of a dispatched task answers what its command has come to. -/
theorem answer?_afterDispatch (hfutures : done.2.futures = (s.deferring future job).futures) :
    (s.afterDispatch t name done).world.futures.size = s.world.futures.size + 1 ∧
      (s.afterDispatch t name done).world.answer? s.world.futures.size =
        some ((done.1.mapError CommandError.message).mapError (.futureFailed future)) := by
  have hpushed := futures_afterDispatch s t name future job hfutures
  have hf : (s.afterDispatch t name done).world.futures[s.world.futures.size]? = some
      { name := future, progress := .ofOutcome (done.1.mapError CommandError.message) } := by
    rw [hpushed, Array.getElem?_push_size]
  exact ⟨by rw [hpushed, Array.size_push], World.answer?_of_settled hf rfl⟩

end

theorem gains_closed (t : Task) (name : String) (o : Except Stop Bool) (s : RunState σ) :
    s.Gains (.close t o) [] (Runner.closed t name o s).2 := by
  rcases o with (cause | _) | changed
  · exact gains_finish t _ s
  · exact .refl s
  · exact gains_afterCompletion t _ s

theorem current_afterCompletion (t : Task) (result : TaskResult) (s : RunState σ) :
    (s.afterCompletion t result).current.play = s.current.play ∧
      (s.afterCompletion t result).current.table = s.current.table := by
  unfold afterCompletion report
  cases t.register <;> (dsimp only; split <;> exact ⟨rfl, rfl⟩)

end RunState

/-- How runs are compared: the names that are hidden from the tasks, and the relation
of the surroundings. -/
structure Comparison (σ : Type) where
  setup : Setup σ
  hidden : String → Prop
  hosts : σ → σ → Prop

namespace Comparison

variable {c : Comparison σ} {p q : Play} {π ρ : Pairing} {s s' u u' v v' : RunState σ}

abbrev Mirrors (c : Comparison σ) (π : Pairing) : World σ → World σ → Prop :=
  World.Mirrors c.hidden c.hosts π

/-- The tasks are the same in both plays, together with all that they call. -/
structure Shares (c : Comparison σ) (p q : Play) (T : Task → Prop) : Prop where
  name : p.name = q.name
  module : ∀ t, T t → q.module? t.command = p.module? t.command
  sub : ∀ t, T t → ∀ sub ∈ p.subtasks t, T sub
  unread : ∀ t, T t → ∀ key ∈ t.mentions, ¬ c.hidden key
  steady : ∀ t, T t → ∀ params command, c.setup.registry.bind t.command params = .ok command →
    command.Steady c.setup.host c.hosts t t

/-- The commands that have been started read nothing hidden. -/
def Fair (c : Comparison σ) (L : List Event) : Prop :=
  ∀ t name args params command, .startTask t name args params ∈ L →
    c.setup.registry.bind t.command params = .ok command →
    ∀ key ∈ command.mentions, ¬ c.hidden key

/-- The runs are in states of the two plays that mirror each other. -/
structure Together (c : Comparison σ) (p q : Play) (π : Pairing) (s s' : RunState σ) : Prop where
  world : c.Mirrors π s.world s'.world
  table : π.tables s.current.table s'.current.table
  left : s.current.play = p
  right : s'.current.play = q

end Comparison

/-- Both runs gain the same part, and deferred tasks whose futures correspond. -/
def Alike (π : Pairing) (s v s' v' : RunState σ) : Prop :=
  ∃ P ds ds', s.Gains P ds v ∧ s'.Gains P ds' v' ∧ List.Forall₂ (Deferred.Mirrors π) ds ds'

section

variable {c : Comparison σ} {p q : Play} {π ρ : Pairing} {s s' u u' v v' : RunState σ}

theorem Deferred.Mirrors.mono {d d' : Deferred} (h : d.Mirrors π d') (hle : π ≤ ρ) :
    d.Mirrors ρ d' := ⟨h.task, h.name, hle.2.1 h.future⟩

namespace Alike

theorem refl (π : Pairing) (s s' : RunState σ) : Alike π s s s' s' :=
  ⟨{}, [], [], .refl s, .refl s', .nil⟩

theorem of_gains {P : Part} (h : s.Gains P [] v) (h' : s'.Gains P [] v') : Alike π s v s' v' :=
  ⟨P, [], [], h, h', .nil⟩

theorem trans (h : Alike π s u s' u') (hle : π ≤ ρ) (h' : Alike ρ u v u' v') :
    Alike ρ s v s' v' := by
  obtain ⟨P, ds, ds', hgains, hgains', hds⟩ := h
  obtain ⟨Q, es, es', hmore, hmore', hes⟩ := h'
  refine ⟨P ++ Q, ds ++ es, ds' ++ es', hgains.trans hmore, hgains'.trans hmore', ?_⟩
  exact List.rel_append (hds.imp fun _ _ hd => hd.mono hle) hes

end Alike

namespace Comparison

theorem Fair.before {A L : List Event} (h : c.Fair L) (hA : A <+: L) : c.Fair A :=
  fun t name args params command hstart => h t name args params command (hA.subset hstart)

namespace Together

theorem ready (h : c.Together p q π s s') : s.Ready 0 s.current.table :=
  ⟨h.world.settled, Nat.zero_le _, rfl⟩

theorem push (h : c.Together p q π s s') (e : Event) : c.Together p q π (s.push e) (s'.push e) :=
  ⟨h.world, h.table, h.left, h.right⟩

/-- The scope of the play on top of the root. -/
theorem table_scope (h : c.Together p q π s s') :
    Scope.Mirrors π [.table s.current.table] [.table s'.current.table] :=
  .cons (.table h.table) .nil

/-- The results may differ if what is registered of them is hidden. -/
theorem afterCompletions (h : c.Together p q π s s') (t : Task) {result result' : TaskResult}
    (hresult : ∀ name, t.register = some name → ¬ c.hidden name → result = result') :
    c.Together p q π (s.afterCompletion t result) (s'.afterCompletion t result') := by
  obtain ⟨hplay, htable⟩ := RunState.current_afterCompletion t result s
  obtain ⟨hplay', htable'⟩ := RunState.current_afterCompletion t result' s'
  refine ⟨?_, by rw [htable, htable']; exact h.table, hplay.trans h.left, hplay'.trans h.right⟩
  unfold RunState.afterCompletion
  cases hregister : t.register with
  | none => exact h.world.of_eq rfl rfl rfl rfl rfl rfl
  | some name =>
    have hset := h.world.set h.table_scope fun hname =>
      congrArg (fun r : TaskResult => r.registered.toValue) (hresult name hregister hname)
    exact hset.of_eq rfl rfl rfl rfl rfl rfl

theorem afterCompletion (h : c.Together p q π s s') (t : Task) (result : TaskResult) :
    c.Together p q π (s.afterCompletion t result) (s'.afterCompletion t result) :=
  h.afterCompletions t fun _ _ _ => rfl

theorem closed (h : c.Together p q π s s') (hname : p.name = q.name) (t : Task)
    (name : String) (o : Except Stop Bool) :
    (Runner.closed t name o s).1 = (Runner.closed t name o s').1 ∧
      c.Together p q π (Runner.closed t name o s).2 (Runner.closed t name o s').2 := by
  rcases o with (cause | _) | changed
  · refine ⟨?_, h.push _⟩
    have hplay : s.current.play.name = s'.current.play.name := by rw [h.left, h.right, hname]
    change Except.error (Stop.failed (cause.inTask s.current.play.name name)) =
      Except.error (Stop.failed (cause.inTask s'.current.play.name name))
    rw [hplay]
  · exact ⟨rfl, h⟩
  · exact ⟨rfl, h.afterCompletion t _⟩

/-- The worlds in which a deferred command runs mirror each other as well. -/
theorem deferring (h : c.Together p q π s s') (future : String) (job job' : Job) :
    c.Mirrors (π.addFutures s.world.futures.size s'.world.futures.size)
      (s.deferring future job) (s'.deferring future job') := by
  let running : Future := { name := future, progress := .running }
  let w : World σ := { s.world with futures := s.world.futures.push running }
  let w' : World σ := { s'.world with futures := s'.world.futures.push running }
  have hrunning : ∀ job, running.progress ≠ .pending job := by simp [running]
  have hlt : s.world.futures.size < w.futures.size := by simp [w]
  have hlt' : s'.world.futures.size < w'.futures.size := by simp [w']
  have hkept : s.world.futures.toList <+: w.futures.toList := by simp [w]
  have hkept' : s'.world.futures.toList <+: w'.futures.toList := by simp [w']
  have hfutures : c.Mirrors π w w' := by
    refine h.world.withFutures rfl rfl rfl rfl (h.world.settled.push hrunning rfl)
      (h.world.settled'.push hrunning rfl) fun hij => ?_
    obtain ⟨hi, hj⟩ := h.world.futures_lt hij
    refine ⟨⟨Nat.lt_trans hi hlt, Nat.lt_trans hj hlt'⟩, ?_⟩
    rw [World.answer?_of_later hkept hi, World.answer?_of_later hkept' hj, h.world.answers hij]
  have hadded := hfutures.addFutures hlt hlt' (by simp [w, w', World.answer?])
  have hbound : c.Mirrors (π.addFutures s.world.futures.size s'.world.futures.size)
      (w.modifyTable s.current.table fun t =>
        { t with futures := t.futures.put future s.world.futures.size })
      (w'.modifyTable s'.current.table fun t =>
        { t with futures := t.futures.put future s'.world.futures.size }) := by
    refine hadded.modifyTables h.table (hadded.vars h.table) fun key hkey => ?_
    dsimp only
    by_cases hname : key = future
    · subst hname
      rw [Dict.get?_put_self, Dict.get?_put_self]
      exact .some (.inr ⟨rfl, rfl⟩)
    · rw [Dict.get?_put_of_ne _ _ hname, Dict.get?_put_of_ne _ _ hname]
      exact hadded.binds h.table key hkey
  exact hbound.of_eq (s.tables_deferring future job) (s.futures_deferring future job) rfl
    (s'.tables_deferring future job') (s'.futures_deferring future job') rfl

/-- A task that both runs dispatch leaves futures that correspond. -/
theorem afterDispatch (h : c.Together p q π s s') {scope scope' : Scope}
    (hscope : Scope.Mirrors π scope scope') {t : Task} (name future : String) {command : Command}
    (hsteady : command.Steady c.setup.host c.hosts t t)
    (hmentions : ∀ key ∈ command.mentions, ¬ c.hidden key) :
    let done := (command.run c.setup.host scope t).run
      (s.deferring future (.command command scope t))
    let done' := (command.run c.setup.host scope' t).run
      (s'.deferring future (.command command scope' t))
    ∃ ρ, π ≤ ρ ∧ c.Together p q ρ (s.afterDispatch t name done) (s'.afterDispatch t name done') ∧
      Alike ρ s (s.afterDispatch t name done) s' (s'.afterDispatch t name done') := by
  intro done done'
  let ρ := π.addFutures s.world.futures.size s'.world.futures.size
  have hle : π ≤ ρ := π.le_addFutures _ _
  obtain ⟨houtcome, hworld⟩ : done.1 = done'.1 ∧ c.Mirrors ρ done.2 done'.2 :=
    Command.related_run (hscope.mono hle) hsteady hmentions _ _ (h.deferring future _ _)
  have hquiet : (s.deferring future (.command command scope t)).Writes (fun _ => True) done.2 :=
    (RunState.settled_deferring h.world.settled future _).writes_command (fun _ _ => trivial) t
      command
  have hquiet' : (s'.deferring future (.command command scope' t)).Writes (fun _ => True)
      done'.2 :=
    (RunState.settled_deferring h.world.settled' future _).writes_command (fun _ _ => trivial) t
      command
  have hgains := RunState.gains_afterDispatch t name future _ hquiet.futures hquiet.recorded
  have hgains' := RunState.gains_afterDispatch t name future _ hquiet'.futures hquiet'.recorded
  obtain ⟨hsize, hanswer⟩ := RunState.answer?_afterDispatch t name future _ hquiet.futures
  obtain ⟨hsize', hanswer'⟩ := RunState.answer?_afterDispatch t name future _ hquiet'.futures
  have hmirrors : c.Mirrors ρ (s.afterDispatch t name done).world
      (s'.afterDispatch t name done').world := by
    refine hworld.withFutures rfl rfl rfl rfl
      (RunState.settled_afterDispatch t name future _ h.world.settled hquiet.futures)
      (RunState.settled_afterDispatch t name future _ h.world.settled' hquiet'.futures) ?_
    -- The first futures answer as before, and the new ones what the commands have come to.
    rintro i j (hij | ⟨rfl, rfl⟩)
    · obtain ⟨hi, hj⟩ := h.world.futures_lt hij
      refine ⟨⟨by omega, by omega⟩, ?_⟩
      rw [World.answer?_of_later hgains.futures hi, World.answer?_of_later hgains'.futures hj,
        h.world.answers hij]
    · refine ⟨⟨by omega, by omega⟩, ?_⟩
      rw [hanswer, hanswer']
      exact congrArg (fun o => some (Except.mapError _ (Except.mapError _ o))) houtcome
  rw [← houtcome] at hgains'
  exact ⟨ρ, hle, ⟨hmirrors, h.table, h.left, h.right⟩, _, _, _, hgains, hgains',
    .cons ⟨rfl, rfl, .inr ⟨rfl, rfl⟩⟩ .nil⟩

end Together

/-- Two parts end alike, and leave the runs together. -/
def Met (c : Comparison σ) (p q : Play) (π : Pairing) (s s' : RunState σ)
    (r r' : Except Stop α × RunState σ) : Prop :=
  r.1 = r'.1 ∧ ∃ ρ, π ≤ ρ ∧ c.Together p q ρ r.2 r'.2 ∧ Alike ρ s r.2 s' r'.2

/-- Two parts keep step from any two states that are together, unless the left run has
started a command that reads something hidden. -/
structure Lockstep (c : Comparison σ) (p q : Play) (π : Pairing) (x y : Step σ α) : Prop where
  goes : ∀ table, Step.Goes 0 table x
  meets : ∀ {ρ s s'}, π ≤ ρ → c.Together p q ρ s s' → c.Fair (x.run.run s).2.events.toList →
    c.Met p q ρ s s' (x.run.run s) (y.run.run s')

namespace Lockstep

open Step

variable {x y : Step σ α} {f g : α → Step σ β}

theorem pure (a : α) : c.Lockstep p q π (pure a) (pure a) :=
  ⟨fun _ => .pure a, fun {ρ s s'} _ h _ => ⟨rfl, ρ, Pairing.le_refl ρ, h, .refl ρ s s'⟩⟩

theorem bind (hx : c.Lockstep p q π x y) (hf : ∀ a, c.Lockstep p q π (f a) (g a)) :
    c.Lockstep p q π (x >>= f) (y >>= g) := by
  refine ⟨fun table => (hx.goes table).bind fun a => (hf a).goes table, ?_⟩
  intro ρ s s' hle h hfair
  rcases hrun : x.run.run s with ⟨o, v⟩
  have hready : s.Ready 0 s.current.table := h.ready
  have hended : s.Ended 0 o v := (hx.goes _ s hready).of_run hrun
  cases o with
  | error e =>
    rw [run_bind_of_error hrun] at hfair ⊢
    obtain ⟨ho, hmet⟩ := hx.meets hle h (hrun.symm ▸ hfair)
    rw [hrun] at ho hmet
    rw [run_bind_of_error (v := (y.run.run s').2) (Prod.ext ho.symm rfl)]
    exact ⟨rfl, hmet⟩
  | ok a =>
    obtain ⟨_, hv⟩ := hended
    rw [run_bind_of_ok hrun] at hfair ⊢
    have hlater : v.events.toList <+: ((f a).run.run v).2.events.toList :=
      RunState.Ended.events ((hf a).goes _ v (hv.ready hready))
    obtain ⟨ho, ρ₁, hρ₁, htogether, halike⟩ :=
      hx.meets hle h (hrun.symm ▸ hfair.before hlater)
    rw [hrun] at ho htogether halike
    rw [run_bind_of_ok (v := (y.run.run s').2) (Prod.ext ho.symm rfl)]
    obtain ⟨ho', ρ₂, hρ₂, htogether', halike'⟩ :=
      (hf a).meets (Pairing.le_trans hle hρ₁) htogether hfair
    exact ⟨ho', ρ₂, Pairing.le_trans hρ₁ hρ₂, htogether', halike.trans hρ₂ halike'⟩

theorem getThen {f g : RunState σ → Step σ α} (hgoes : ∀ table, Goes 0 table (get >>= f))
    (h : ∀ {ρ s s'}, π ≤ ρ → c.Together p q ρ s s' → c.Lockstep p q ρ (f s) (g s')) :
    c.Lockstep p q π (get >>= f) (get >>= g) :=
  ⟨hgoes, fun hle htogether hfair =>
    (h hle htogether).meets (Pairing.le_refl _) htogether hfair⟩

theorem start (t : Task) (name args : String) (params : Vars) :
    c.Lockstep p q π (emit (.startTask t name args params))
      (emit (.startTask t name args params)) :=
  ⟨fun _ => .emit (by simp), fun {ρ _ _} _ h _ => ⟨rfl, ρ, Pairing.le_refl ρ, h.push _,
    .of_gains (RunState.gains_start t name args params _)
      (RunState.gains_start t name args params _)⟩⟩

/-- What only reads leaves the runs where they are. -/
theorem read {z z' : RunM σ α} (hz : ∀ w : World σ, w.Settled → (z.run w).2 = w)
    (hz' : ∀ w : World σ, w.Settled → (z'.run w).2 = w)
    (h : ∀ {ρ}, π ≤ ρ → Related (c.Mirrors ρ) z z') :
    c.Lockstep p q π (inWorld z) (inWorld z') := by
  refine ⟨fun _ => .read hz, fun {ρ s s'} hle htogether _ => ?_⟩
  obtain ⟨ho, -⟩ := h hle _ _ htogether.world
  refine ⟨congrArg Except.ok ho, ρ, Pairing.le_refl ρ, ?_⟩
  rw [run_inWorld, run_inWorld, hz _ htogether.world.settled, hz' _ htogether.world.settled']
  exact ⟨htogether, .refl ρ s s'⟩

theorem newTableThen (vars : Vars) {f g : Nat → Step σ α}
    (h : ∀ {ρ i j}, π ≤ ρ → ρ.tables i j → c.Lockstep p q ρ (f i) (g j)) :
    c.Lockstep p q π (newTable vars >>= f) (newTable vars >>= g) := by
  have hgoes (i table : Nat) : Goes 0 table (f i) :=
    (h (π.le_addTables i i) (.inr ⟨rfl, rfl⟩)).goes table
  refine ⟨fun table => .newTableThen fun i _ => hgoes i table, ?_⟩
  intro ρ s s' hle htogether hfair
  let ρ' := ρ.addTables s.world.tables.size s'.world.tables.size
  have hle' : ρ ≤ ρ' := ρ.le_addTables _ _
  let u : RunState σ := { s with world := (s.world.newTable vars).2 }
  let u' : RunState σ := { s' with world := (s'.world.newTable vars).2 }
  have hu : c.Together p q ρ' u u' :=
    ⟨htogether.world.newTables vars, hle'.1 htogether.table, htogether.left, htogether.right⟩
  have hrest : c.Lockstep p q ρ' (f s.world.tables.size) (g s'.world.tables.size) :=
    h (Pairing.le_trans hle hle') (.inr ⟨rfl, rfl⟩)
  obtain ⟨ho, ρ₂, hρ₂, hend, halike⟩ := hrest.meets (Pairing.le_refl ρ') hu hfair
  have hadded : Alike ρ' s u s' u' :=
    .of_gains (RunState.gains_world rfl rfl) (RunState.gains_world rfl rfl)
  exact ⟨ho, ρ₂, Pairing.le_trans hle' hρ₂, hend, hadded.trans hρ₂ halike⟩

theorem anyChanged {ι : Type} {run run' : ι → Step σ Bool} {as : List ι}
    (h : ∀ a ∈ as, c.Lockstep p q π (run a) (run' a)) :
    c.Lockstep p q π (Runner.anyChanged run as) (Runner.anyChanged run' as) := by
  induction as with
  | nil => exact .pure false
  | cons a as ih =>
    have hrest : c.Lockstep p q π (Runner.anyChanged run as) (Runner.anyChanged run' as) :=
      ih fun b hb => h b (List.mem_cons_of_mem a hb)
    exact (h a List.mem_cons_self).bind fun _ => hrest.bind fun _ => .pure _

/-- What a started task does may depend on what its command reads. -/
theorem startThen {t : Task} {name args : String} {params : Vars} {x y : Step σ α}
    (hgoes : ∀ table, Goes 0 table x)
    (h : (∀ command, c.setup.registry.bind t.command params = .ok command →
      ∀ key ∈ command.mentions, ¬ c.hidden key) → c.Lockstep p q π x y) :
    c.Lockstep p q π (emit (.startTask t name args params) >>= fun _ => x)
      (emit (.startTask t name args params) >>= fun _ => y) := by
  have hstart (table : Nat) : Goes 0 table (emit (.startTask t name args params) : Step σ Unit) :=
    .emit (by simp)
  refine ⟨fun table => (hstart table).bind fun _ => hgoes table, ?_⟩
  intro ρ s s' hle htogether hfair
  let u := s.push (.startTask t name args params)
  have hends : u.Ended 0 (x.run.run u).1 (x.run.run u).2 :=
    hgoes _ u (htogether.push (.startTask t name args params)).ready
  have hstarted : .startTask t name args params ∈ (x.run.run u).2.events.toList := by
    apply hends.events.subset
    change _ ∈ (s.events.push _).toList
    simp
  have hboth : c.Lockstep p q π x y := h fun command hbind =>
    hfair t name args params command hstarted hbind
  exact ((start t name args params).bind fun _ => hboth).meets hle htogether hfair

/-- A reading may be used together with what is known of its answer. -/
theorem readThen {z z' : RunM σ α} {Q : α → Prop} {f g : α → Step σ β}
    (hgoes : ∀ table, Goes 0 table (inWorld z >>= f))
    (hz : ∀ w : World σ, w.Settled → (z.run w).2 = w)
    (hz' : ∀ w : World σ, w.Settled → (z'.run w).2 = w)
    (hread : ∀ {ρ}, π ≤ ρ → Related (c.Mirrors ρ) z z') (hanswer : Answers z Q)
    (h : ∀ a, Q a → c.Lockstep p q π (f a) (g a)) :
    c.Lockstep p q π (inWorld z >>= f) (inWorld z' >>= g) := by
  refine ⟨hgoes, fun {ρ s s'} hle htogether hfair => ?_⟩
  obtain ⟨ho, -⟩ := hread hle _ _ htogether.world
  have hrun : (inWorld z).run.run s = (.ok (z.run s.world).1, s) := by
    rw [run_inWorld, hz _ htogether.world.settled]
  have hrun' : (inWorld z').run.run s' = (.ok (z.run s.world).1, s') := by
    rw [run_inWorld, hz' _ htogether.world.settled', ho]
  rw [run_bind_of_ok hrun] at hfair ⊢
  rw [run_bind_of_ok hrun']
  exact (h _ (hanswer s.world)).meets hle htogether hfair

end Lockstep

variable {T : Task → Prop} {scope scope' : Scope} {t : Task}

theorem lockstep_fail (hname : p.name = q.name) (t : Task) (name args : String)
    (cause : Error) :
    c.Lockstep p q π (Step.reportFailure t name args cause >>= fun _ =>
        Step.failTask (α := α) name cause)
      (Step.reportFailure t name args cause >>= fun _ => Step.failTask (α := α) name cause) := by
  refine ⟨fun table => Runner.goes_fail t name args cause, fun {ρ s s'} _ h _ => ?_⟩
  have hplay : s.current.play.name = s'.current.play.name := by rw [h.left, h.right, hname]
  have hgains (u : RunState σ) := (RunState.gains_start t name args [] u).trans
    (RunState.gains_finish t (TaskResult.ofFailure cause.message) _)
  refine ⟨?_, ρ, Pairing.le_refl ρ, (h.push _).push _, .of_gains (hgains s) (hgains s')⟩
  change Except.error (Stop.failed (cause.inTask s.current.play.name name)) =
    Except.error (Stop.failed (cause.inTask s'.current.play.name name))
  rw [hplay]

theorem lockstep_runCommand (hname : p.name = q.name) (t : Task) (name : String)
    (hscope : Scope.Mirrors π scope scope') {command : Command}
    (hsteady : command.Steady c.setup.host c.hosts t t)
    (hmentions : ∀ key ∈ command.mentions, ¬ c.hidden key) :
    c.Lockstep p q π (Runner.runCommand c.setup t name command scope)
      (Runner.runCommand c.setup t name command scope') := by
  refine ⟨fun table => Runner.goes_runCommand t name command fun _ _ => .inr (Nat.zero_le _),
    fun {ρ s s'} hle h _ => ?_⟩
  obtain ⟨houtcome, hworld⟩ := Command.related_run (hscope.mono hle) hsteady hmentions _ _ h.world
  have hplay : s.current.play.name = s'.current.play.name := by rw [h.left, h.right, hname]
  have hquiet : s.world.Writes (fun _ => True) ((command.run c.setup.host scope t).run s.world).2 :=
    h.world.settled.writes_command (fun _ _ => trivial) t command
  have hquiet' : s'.world.Writes (fun _ => True)
      ((command.run c.setup.host scope' t).run s'.world).2 :=
    h.world.settled'.writes_command (fun _ _ => trivial) t command
  rw [Runner.run_runCommand, Runner.run_runCommand]
  dsimp only
  generalize (command.run c.setup.host scope t).run s.world = done at *
  generalize (command.run c.setup.host scope' t).run s'.world = done' at *
  have htogether : c.Together p q ρ { s with world := done.2 } { s' with world := done'.2 } :=
    ⟨hworld, h.table, h.left, h.right⟩
  have hgains := (RunState.gains_world (s := s) hquiet.recorded hquiet.futures).trans
    (RunState.gains_afterCompletion t (Command.resultOf done.1) _)
  have hgains' := (RunState.gains_world (s := s') hquiet'.recorded hquiet'.futures).trans
    (RunState.gains_afterCompletion t (Command.resultOf done.1) _)
  rw [← houtcome]
  refine ⟨?_, ρ, Pairing.le_refl ρ, htogether.afterCompletion t _, .of_gains hgains hgains'⟩
  rw [hplay]

theorem lockstep_dispatch (t : Task) (name future : String)
    (hscope : Scope.Mirrors π scope scope') {command : Command}
    (hsteady : command.Steady c.setup.host c.hosts t t)
    (hmentions : ∀ key ∈ command.mentions, ¬ c.hidden key) :
    c.Lockstep p q π (Runner.dispatch c.setup t name future command scope)
      (Runner.dispatch c.setup t name future command scope') := by
  refine ⟨fun table => Runner.goes_dispatch t name future command fun _ _ => .inr (Nat.zero_le _),
    fun {ρ s s'} hle h _ => ?_⟩
  rw [Runner.run_dispatch, Runner.run_dispatch]
  exact ⟨rfl, h.afterDispatch (hscope.mono hle) name future hsteady hmentions⟩

/-- A call ends as its tasks do, and reports what they have come to. -/
theorem lockstep_closing (hname : p.name = q.name) {x y : Step σ Bool}
    (h : c.Lockstep p q π x y) (t : Task) (name : String) :
    c.Lockstep p q π (Step.outcome x >>= Runner.closing t name)
      (Step.outcome y >>= Runner.closing t name) := by
  refine ⟨fun table => Runner.goes_closing (h.goes table) t name,
    fun {ρ s s'} hle htogether hfair => ?_⟩
  rcases hrun : x.run.run s with ⟨o, v⟩
  rw [Runner.run_closing t name hrun] at hfair ⊢
  have hlater : v.events.toList <+: (Runner.closed t name o v).2.events.toList := by
    rw [(v.gains_closed t name o).events]
    exact List.prefix_append _ _
  obtain ⟨ho, ρ', hρ', hend, halike⟩ :=
    h.meets hle htogether (hrun.symm ▸ hfair.before hlater)
  rw [hrun] at ho hend halike
  rw [Runner.run_closing t name (o := o) (v := (y.run.run s').2) (Prod.ext ho.symm rfl)]
  have hclosed : Alike ρ' v _ (y.run.run s').2 _ :=
    .of_gains (v.gains_closed t name o) ((y.run.run s').2.gains_closed t name o)
  obtain ⟨hsame, htogether'⟩ := hend.closed hname t name o
  exact ⟨hsame, ρ', hρ', htogether', halike.trans (Pairing.le_refl ρ') hclosed⟩

/-- The calls of shared tasks keep step. -/
structure CallKeeps (c : Comparison σ) (p q : Play) (T : Task → Prop)
    (call : Task → Scope → Step σ Bool) : Prop where
  goes : ∀ table, Runner.CallGoes 0 table call
  keeps : ∀ {π sub scope scope'}, T sub → Scope.Mirrors π scope scope' →
    c.Lockstep p q π (call sub scope) (call sub scope')

variable {call : Task → Scope → Step σ Bool}

theorem lockstep_callModule (hshares : c.Shares p q T) (hcall : c.CallKeeps p q T call) (ht : T t)
    (prepared : Prepared) {m : Module} (hm : p.module? t.command = some m)
    (hscope : Scope.Mirrors π scope scope') :
    c.Lockstep p q π (Runner.callModule call t prepared m scope)
      (Runner.callModule call t prepared m scope') := by
  rw [Runner.callModule_eq, Runner.callModule_eq]
  apply Lockstep.newTableThen
  intro ρ i j hle hij
  apply lockstep_closing hshares.name
  apply Lockstep.anyChanged
  intro sub hsub
  have hsub' : sub ∈ p.subtasks t := by simpa [Play.subtasks, hm] using hsub
  exact hcall.keeps (hshares.sub t ht sub hsub') ((hscope.mono hle).table hij)

theorem lockstep_acting (hshares : c.Shares p q T) (hcall : c.CallKeeps p q T call) (ht : T t)
    {prepared : Prepared} (hbound : t.Bound c.setup.registry p prepared)
    (hscope : Scope.Mirrors π scope scope')
    (hmentions : ∀ command, c.setup.registry.bind t.command prepared.params = .ok command →
      ∀ key ∈ command.mentions, ¬ c.hidden key) :
    c.Lockstep p q π (Runner.acting c.setup call t scope prepared)
      (Runner.acting c.setup call t scope' prepared) := by
  unfold Runner.acting Runner.performing
  cases haction : prepared.action with
  | call m => exact lockstep_callModule hshares hcall ht prepared (hbound.call m haction) hscope
  | run command =>
    have hbind := (hbound.run command haction).2
    have hsteady := hshares.steady t ht _ command hbind
    dsimp only
    cases Runner.futureName? t prepared.name with
    | none =>
      exact lockstep_runCommand hshares.name t _ hscope hsteady (hmentions command hbind)
    | some future =>
      exact (lockstep_dispatch t _ future hscope hsteady (hmentions command hbind)).bind
        fun _ => .pure _

theorem lockstep_starting (hshares : c.Shares p q T) (hcall : c.CallKeeps p q T call) (ht : T t)
    {r : Except Unprepared Prepared}
    (hbound : ∀ prepared, r = .ok prepared → t.Bound c.setup.registry p prepared)
    (hscope : Scope.Mirrors π scope scope') :
    c.Lockstep p q π (Runner.starting c.setup call t scope r)
      (Runner.starting c.setup call t scope' r) := by
  cases r with
  | error u => exact lockstep_fail hshares.name t u.name u.args u.cause
  | ok prepared =>
    refine Lockstep.startThen (fun table => ?_) fun hmentions => ?_
    · exact Runner.goes_acting (hcall.goes table) t (fun _ _ => .inr (Nat.zero_le _)) prepared
    · exact lockstep_acting hshares hcall ht (hbound prepared rfl) hscope hmentions

theorem lockstep_runOnce (hshares : c.Shares p q T) (hcall : c.CallKeeps p q T call) (ht : T t)
    {outer outer' : Scope} (hscope : Scope.Mirrors π outer outer') :
    c.Lockstep p q π (Runner.runOnce c.setup call t outer)
      (Runner.runOnce c.setup call t outer') := by
  have hgoes (table : Nat) (play : Play) :
      Step.Goes 0 table (Step.inWorld (t.prepare c.setup play (t.scope outer)) >>=
        Runner.starting c.setup call t (t.scope outer)) := by
    have hprepare : Step.Goes 0 table (Step.inWorld (t.prepare c.setup play (t.scope outer))) :=
      .read fun w hw => hw.run_prepare c.setup play t (t.scope outer)
    exact hprepare.bind fun r =>
      Runner.goes_starting (hcall.goes table) t (fun _ _ => .inr (Nat.zero_le _)) r
  rw [Runner.runOnce_eq, Runner.runOnce_eq]
  refine Lockstep.getThen (fun table => ?_) fun {ρ s s'} hle htogether => ?_
  · exact Step.Goes.getThen fun s hs => hgoes table s.current.play s hs
  · rw [htogether.left, htogether.right]
    have hscope' := (hscope.mono hle).task t
    apply Lockstep.readThen (hgoes · p)
      (fun w hw => hw.run_prepare c.setup p t (t.scope outer))
      (fun w hw => hw.run_prepare c.setup q t (t.scope outer')) ?_
      (Task.bound_of_prepare c.setup p t (t.scope outer))
      (fun r hbound => lockstep_starting hshares hcall ht hbound hscope')
    intro τ hτ
    exact Task.related_prepare (hshares.module t ht) fun key hkey =>
      (hscope'.mono hτ).related_read (hshares.unread t ht key hkey)

theorem lockstep_runItem (hshares : c.Shares p q T) (hcall : c.CallKeeps p q T call) (ht : T t)
    {outer outer' : Scope} (hscope : Scope.Mirrors π outer outer') (item : Value) :
    c.Lockstep p q π (Runner.runItem c.setup call t outer item)
      (Runner.runItem c.setup call t outer' item) := by
  apply Lockstep.newTableThen
  intro ρ i j hle hij
  exact lockstep_runOnce hshares hcall ht ((hscope.mono hle).table hij)

theorem lockstep_runDue (hshares : c.Shares p q T) (hcall : c.CallKeeps p q T call) (ht : T t)
    {outer outer' : Scope} (hscope : Scope.Mirrors π outer outer') :
    c.Lockstep p q π (Runner.runDue c.setup call t outer) (Runner.runDue c.setup call t outer') := by
  unfold Runner.runDue
  cases t.items with
  | none => exact lockstep_runOnce hshares hcall ht hscope
  | some items => exact .anyChanged fun item _ => lockstep_runItem hshares hcall ht hscope item

theorem lockstep_runTaskWith (hshares : c.Shares p q T) (hcall : c.CallKeeps p q T call) (ht : T t)
    {outer outer' : Scope} (hscope : Scope.Mirrors π outer outer') :
    c.Lockstep p q π (Runner.runTaskWith c.setup call t outer)
      (Runner.runTaskWith c.setup call t outer') := by
  rw [Runner.runTaskWith_eq, Runner.runTaskWith_eq]
  have hdue : c.Lockstep p q π (Step.inWorld (t.due c.setup outer))
      (Step.inWorld (t.due c.setup outer')) :=
    .read (fun w hw => hw.run_due c.setup t outer) (fun w hw => hw.run_due c.setup t outer')
      fun hle => Task.related_due fun key hkey =>
        ((hscope.mono hle).task t).related_read (hshares.unread t ht key hkey)
  apply hdue.bind
  rintro (e | _ | _)
  · exact lockstep_fail hshares.name t t.name "" (.expr e)
  · exact .pure false
  · exact lockstep_runDue hshares hcall ht hscope

/-- Shared tasks keep step, at any depth of module calls. -/
theorem lockstep_runTask (hshares : c.Shares p q T) (depth : Nat) :
    c.CallKeeps p q T (Runner.runTask c.setup depth) := by
  induction depth with
  | zero =>
    refine ⟨fun table => Runner.goes_runTask c.setup 0, fun _ _ => ?_⟩
    exact ⟨fun _ _ _ => .deep .refl, fun {ρ s s'} _ h _ =>
      ⟨rfl, ρ, Pairing.le_refl ρ, h, .refl ρ s s'⟩⟩
  | succ depth ih =>
    exact ⟨fun table => Runner.goes_runTask c.setup (depth + 1), fun ht hscope =>
      lockstep_runTaskWith hshares ih ht hscope⟩

end Comparison

end

end PlaybookRunner
