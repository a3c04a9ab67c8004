import PlaybookRunner.Proofs.Extents
import PlaybookRunner.Proofs.PlayVariables

/-!
# Loops over items

A task with items takes one turn after the other, as long as they end well. So a loop can be
parted anywhere: up to the items of the reported task it does what the loops over the parts
do one after the other. What the command of a turn binds, it binds for its own item.
-/

namespace PlaybookRunner

variable {σ α : Type} {host : Host σ} {t : Task}

/-- The tasks are the same, or both are the given one with items of their own. -/
inductive Task.UpToItems (t : Task) : Task → Task → Prop
  | same (a : Task) : UpToItems t a a
  | items (xs ys : Option (List Value)) : UpToItems t (t.withItems xs) (t.withItems ys)

/-- The events are the same up to the items of the given task. -/
inductive Event.UpToItems (t : Task) : Event → Event → Prop
  | same (e : Event) : UpToItems t e e
  | start {a b : Task} (h : t.UpToItems a b) (name args : String) (params : Vars) :
      UpToItems t (.startTask a name args params) (.startTask b name args params)
  | finish {a b : Task} (h : t.UpToItems a b) (result : Option TaskResult) :
      UpToItems t (.finishTask a result) (.finishTask b result)

/-- The deferred tasks are the same up to the items of the given one. -/
structure Deferred.UpToItems (t : Task) (d d' : Deferred) : Prop where
  task : t.UpToItems d.task d'.task
  name : d.name = d'.name
  future : d.future = d'.future

/-- The worlds are the same up to the items of the given task among what was recorded. -/
structure World.UpToItems (t : Task) (w v : World σ) : Prop where
  tables : w.tables = v.tables
  futures : w.futures = v.futures
  executed : w.executed = v.executed
  host : w.host = v.host
  recorded : List.Forall₂ (fun e e' => t.UpToItems e.1 e'.1 ∧ e.2 = e'.2)
    w.recorded.toList v.recorded.toList

/-- The states are the same up to the items of the given task. -/
structure RunState.UpToItems (t : Task) (s s' : RunState σ) : Prop where
  world : s.world.UpToItems t s'.world
  events : List.Forall₂ (Event.UpToItems t) s.events.toList s'.events.toList
  play : s.current.play = s'.current.play
  table : s.current.table = s'.current.table
  notified : s.current.notified = s'.current.notified
  deferred : List.Forall₂ (Deferred.UpToItems t) s.current.deferred s'.current.deferred

theorem forall₂_push {β : Type} {R : α → β → Prop} {as : Array α} {bs : Array β} {a : α} {b : β}
    (h : List.Forall₂ R as.toList bs.toList) (hab : R a b) :
    List.Forall₂ R (as.push a).toList (bs.push b).toList := by
  rw [Array.toList_push, Array.toList_push]
  exact List.rel_append h (.cons hab .nil)

namespace World.UpToItems

variable {w v : World σ}

theorem refl (w : World σ) : w.UpToItems t w :=
  ⟨rfl, rfl, rfl, rfl, List.forall₂_same.mpr fun e _ => ⟨.same e.1, rfl⟩⟩

theorem table (h : w.UpToItems t v) (i : Nat) : v.table i = w.table i := by
  rw [table_eq, table_eq, h.tables]

theorem modifyTable (h : w.UpToItems t v) (i : Nat) (change : Table → Table) :
    (w.modifyTable i change).UpToItems t (v.modifyTable i change) :=
  ⟨congrArg (Array.modify · i change) h.tables, h.futures, h.executed, h.host, h.recorded⟩

theorem set (h : w.UpToItems t v) (scope : Scope) (key : String) (value : Value) :
    (w.set scope key value).UpToItems t (v.set scope key value) := by
  unfold World.set
  cases scope.owner? with
  | none => exact h
  | some i => exact h.modifyTable i _

theorem extend (h : w.UpToItems t v) (scope : Scope) (facts : Vars) :
    (w.extend scope facts).UpToItems t (v.extend scope facts) := by
  unfold World.extend
  induction facts generalizing w v with
  | nil => exact h
  | cons fact rest ih => exact ih (h.set scope fact.1 fact.2)

theorem newTable (h : w.UpToItems t v) (vars : Vars) :
    (w.newTable vars).2.UpToItems t (v.newTable vars).2 :=
  ⟨congrArg (Array.push · _) h.tables, h.futures, h.executed, h.host, h.recorded⟩

theorem record (h : w.UpToItems t v) {a b : Task} (hab : t.UpToItems a b) (result : TaskResult) :
    (w.record a result).UpToItems t (v.record b result) :=
  ⟨h.tables, h.futures, h.executed, h.host, forall₂_push h.recorded ⟨hab, rfl⟩⟩

theorem withFutures (h : w.UpToItems t v) (change : Array Future → Array Future) :
    { w with futures := change w.futures }.UpToItems t { v with futures := change v.futures } :=
  ⟨h.tables, congrArg change h.futures, h.executed, h.host, h.recorded⟩

theorem setProgress (h : w.UpToItems t v) (i : Nat) (p : Progress) :
    (w.setProgress i p).UpToItems t (v.setProgress i p) :=
  h.withFutures (Array.modify · i fun f => { f with progress := p })

theorem start (h : w.UpToItems t v) (i : Nat) : (w.start i).UpToItems t (v.start i) :=
  ⟨h.tables, (h.setProgress i .running).futures, congrArg (· + 1) h.executed, h.host, h.recorded⟩

theorem addFuture (h : w.UpToItems t v) (table : Nat) (name : String) (job : Job) :
    (w.addFuture table name job).2.UpToItems t (v.addFuture table name job).2 := by
  have hsize : w.futures.size = v.futures.size := congrArg Array.size h.futures
  unfold World.addFuture
  dsimp only
  rw [hsize]
  exact (h.withFutures (Array.push · { name, progress := .pending job })).modifyTable table _

theorem setHost (h : w.UpToItems t v) (s : σ) :
    { w with host := s }.UpToItems t { v with host := s } :=
  ⟨h.tables, h.futures, h.executed, rfl, h.recorded⟩

theorem keeps (t : Task) (scope : Scope) :
    Command.Keeps (World.UpToItems (σ := σ) t) Eq scope scope where
  host h := h.host
  setHost := by
    rintro w v s _ h rfl
    exact h.setHost s
  extend facts h := h.extend scope facts

theorem kept (t : Task) : KeptByJobs (World.UpToItems (σ := σ) t) :=
  ⟨fun h i => h.table i, keeps t, fun a result h => h.record (.same a) result⟩

/-- One level of forcing does the same in both worlds. -/
theorem related_forceBy {inner : Forcing σ}
    (hinner : ∀ i, Related (World.UpToItems t) (inner i) (inner i)) (i : Nat) :
    Related (World.UpToItems t) (Future.forceBy host inner i) (Future.forceBy host inner i) := by
  apply Related.getThen
  intro w v h
  rw [h.futures]
  cases v.futures[i]? with
  | none => exact .pure _
  | some f =>
    dsimp only
    cases f.progress with
    | pending job =>
      refine .modifyThen (fun hw => hw.start i) ?_
      have hjob : Related (World.UpToItems t) (job.runWith host inner) (job.runWith host inner) :=
        job.related_runWith (kept t) hinner fun table name later _ _ _ h =>
          h.addFuture table name later
      exact hjob.bind fun o => .modifyThen (fun hw => hw.setProgress i _) (.pure _)
    | _ => exact .pure _

theorem related_force (t : Task) (i : Nat) :
    Related (World.UpToItems t) (Future.force host i) (Future.force host i) :=
  Future.related_force (fun h => h.futures.symm) related_forceBy i

theorem related_read (t : Task) (scope : Scope) (key : String) :
    Related (World.UpToItems t) (scope.read host key) (scope.read host key) :=
  Scope.related_readWith (fun h i => h.table i) (related_force t) scope key

theorem related_run (t : Task) {a b : Task} {command : Command}
    (hsteady : command.Steady host Eq a b) (scope : Scope) :
    Related (World.UpToItems t) (command.run host scope a) (command.run host scope b) :=
  Command.related_runWith (keeps t scope) command hsteady fun key _ => related_read t scope key

end World.UpToItems

theorem Task.UpToItems.exists_items {a b : Task} (h : t.UpToItems a b) :
    ∃ items, b = a.withItems items := by
  cases h with
  | same => exact ⟨a.items, rfl⟩
  | items xs ys => exact ⟨ys, rfl⟩

namespace RunState

/-- The rest of the surroundings of a dispatched command does not depend on the items. -/
theorem upToItems_deferring {s s' : RunState σ} (hworld : s.world.UpToItems t s'.world)
    (htable : s.current.table = s'.current.table) (future : String) (job job' : Job) :
    (s.deferring future job).UpToItems t (s'.deferring future job') where
  tables := by
    have hsize : s.world.futures.size = s'.world.futures.size :=
      congrArg Array.size hworld.futures
    rw [tables_deferring, tables_deferring, htable, hsize]
    exact (hworld.modifyTable _ _).tables
  futures := by rw [futures_deferring, futures_deferring, hworld.futures]
  executed := congrArg (· + 1) hworld.executed
  host := hworld.host
  recorded := hworld.recorded

namespace UpToItems

variable {s s' : RunState σ} {a b : Task}

theorem refl (s : RunState σ) : s.UpToItems t s where
  world := .refl s.world
  events := List.forall₂_same.mpr fun e _ => .same e
  play := rfl
  table := rfl
  notified := rfl
  deferred := List.forall₂_same.mpr fun d _ => ⟨.same d.task, rfl, rfl⟩

theorem work (h : s.UpToItems t s') {w w' : World σ} (hw : w.UpToItems t w') :
    { s with world := w }.UpToItems t { s' with world := w' } :=
  ⟨hw, h.events, h.play, h.table, h.notified, h.deferred⟩

theorem related_around {z z' : RunM σ α} (h : s.UpToItems t s')
    (hz : Related (World.UpToItems t) z z') :
    Related (Around (RunState.UpToItems t) s s') z z' := by
  intro w w' hw
  obtain ⟨hanswer, hworld⟩ := hz w w' hw.world
  exact ⟨hanswer, h.work hworld⟩

theorem push (h : s.UpToItems t s') {e e' : Event} (he : e.UpToItems t e') :
    (s.push e).UpToItems t (s'.push e') :=
  ⟨h.world, forall₂_push h.events he, h.play, h.table, h.notified, h.deferred⟩

theorem notify (h : s.UpToItems t s') (hab : t.UpToItems a b) :
    { s with current := s.current.notify a }.UpToItems t
      { s' with current := s'.current.notify b } := by
  obtain ⟨items, rfl⟩ := hab.exists_items
  exact ⟨h.world, h.events, h.play, h.table, congrArg (a.notify.foldl addName) h.notified,
    h.deferred⟩

theorem report (h : s.UpToItems t s') (hab : t.UpToItems a b) (result : TaskResult) :
    (s.report a result).UpToItems t (s'.report b result) := by
  have hreported := (h.work (h.world.record hab result)).push (.finish hab (some result))
  unfold RunState.report
  by_cases hnotify : !result.failed && result.changed
  · simp only [if_pos hnotify]
    exact hreported.notify hab
  · simp only [if_neg hnotify]
    exact hreported

theorem completion (h : s.UpToItems t s') (hab : t.UpToItems a b) (result : TaskResult) :
    (s.afterCompletion a result).UpToItems t (s'.afterCompletion b result) := by
  have hregister : b.register = a.register := by
    obtain ⟨items, rfl⟩ := hab.exists_items
    rfl
  unfold afterCompletion
  rw [hregister, h.table]
  cases a.register with
  | none => exact h.report hab result
  | some name => exact (h.work (h.world.set _ name _)).report hab result

theorem dispatching (h : s.UpToItems t s') (hab : t.UpToItems a b) {command : Command}
    (hsteady : command.Steady host Eq a b) (scope : Scope) (name future : String) :
    (s.afterDispatch a name
        ((command.run host scope a).run
          (s.deferring future (.command command scope a)))).UpToItems t
      (s'.afterDispatch b name
        ((command.run host scope b).run (s'.deferring future (.command command scope b)))) := by
  have hsize : s.world.futures.size = s'.world.futures.size :=
    congrArg Array.size h.world.futures
  obtain ⟨hanswer, hdone⟩ := World.UpToItems.related_run t hsteady scope _ _
    (upToItems_deferring h.world h.table future (.command command scope a)
      (.command command scope b))
  unfold afterDispatch
  rw [← hanswer, ← hsize]
  exact {
    world := (hdone.record hab _).setProgress _ _
    events := forall₂_push h.events (.finish hab none)
    play := h.play
    table := h.table
    notified := h.notified
    deferred := List.rel_append h.deferred (.cons ⟨hab, rfl, rfl⟩ .nil) }

end UpToItems

end RunState

namespace Runner

open Step RunState

variable {setup : Setup σ}

/-- The commands that the task may run do not depend on its items. Of all commands only
those supplied from outside are given them. -/
def ItemBlind (setup : Setup σ) (t : Task) : Prop :=
  ∀ params command, setup.registry.bind t.command params = .ok command →
    ∀ xs ys, command.Steady setup.host Eq (t.withItems xs) (t.withItems ys)

/-- All that tasks do is the same up to the items of the given one. -/
theorem kept_upToItems (hblind : ItemBlind setup t) :
    KeptBySteps setup (fun _ => True) t.UpToItems (RunState.UpToItems t) := by
  have hsteady {a b : Task} (hab : t.UpToItems a b) {params : Vars} {command : Command}
      (hbind : setup.registry.bind a.command params = .ok command) :
      command.Steady setup.host Eq a b := by
    cases hab with
    | same => exact command.steady_eq setup.host a
    | items xs ys => exact hblind params command hbind xs ys
  constructor
  case items => exact fun hab => hab.exists_items
  case refl => exact .same
  case play => exact fun hs => hs.play.symm
  case size => exact fun hs => ⟨congrArg Array.size hs.world.tables.symm, trivial⟩
  case reading => exact fun hs scope key =>
    hs.related_around (World.UpToItems.related_read t scope key)
  case opening => exact fun hs vars => hs.work (hs.world.newTable vars)
  case start => exact fun hs hab name args params => hs.push (.start hab name args params)
  case finish => exact fun hs hab result => hs.push (.finish hab result)
  case completion => exact fun hs hab result => hs.completion hab result
  case running =>
    exact fun hs hab _ hbind =>
      hs.related_around (World.UpToItems.related_run t (hsteady hab hbind) _)
  case dispatching =>
    exact fun hs hab _ hbind name future => hs.dispatching hab (hsteady hab hbind) _ name future

variable {s u : RunState σ} {run : α → Step σ Bool} {outer : Scope} {depth : Nat}

/-- The part at the index begins in the state: those before it have ended well. -/
def Begins (run : α → Step σ Bool) (s : RunState σ) (as : List α) (i : Nat) (u : RunState σ) :
    Prop :=
  ∃ b, (anyChanged run (as.take i)).run.run s = (.ok b, u)

theorem begins_zero (run : α → Step σ Bool) (s : RunState σ) (as : List α) :
    Begins run s as 0 s := ⟨false, rfl⟩

theorem begins_succ_iff {a : α} {as : List α} {i : Nat} :
    Begins run s (a :: as) (i + 1) u ↔
      ∃ first v, (run a).run.run s = (.ok first, v) ∧ Begins run v as i u := by
  constructor
  · rintro ⟨b, h⟩
    obtain ⟨first, v, others, hfirst, hothers, -⟩ := anyChanged_cons_ok h
    exact ⟨first, v, hfirst, others, hothers⟩
  · rintro ⟨first, v, hfirst, others, hothers⟩
    exact ⟨_, run_anyChanged_cons hfirst hothers⟩

/-- Parts in a row report one after the other, each from the state it begins in. -/
theorem exists_turns
    (hrun : ∀ a s, ∃ L, ((run a).run.run s).2.events.toList = s.events.toList ++ L) (as : List α)
    (s : RunState σ) :
    ∃ turns : List (List Event), turns.length ≤ as.length ∧
      ((anyChanged run as).run.run s).2.events.toList = s.events.toList ++ turns.flatten ∧
      ∀ i a, as[i]? = some a → (i < turns.length ↔ ∃ u, Begins run s as i u) ∧
        ∀ L, turns[i]? = some L → ∃ u, Begins run s as i u ∧
          ((run a).run.run u).2.events.toList = u.events.toList ++ L := by
  induction as generalizing s with
  | nil => exact ⟨[], Nat.le_refl _, (List.append_nil _).symm, by simp⟩
  | cons a as ih =>
    obtain ⟨L, hL⟩ := hrun a s
    have hzero {turns : List (List Event)} (b : α) (hb : (a :: as)[0]? = some b) :
        (0 < (L :: turns).length ↔ ∃ u, Begins run s (a :: as) 0 u) ∧
          ∀ M, (L :: turns)[0]? = some M → ∃ u, Begins run s (a :: as) 0 u ∧
            ((run b).run.run u).2.events.toList = u.events.toList ++ M := by
      cases hb
      refine ⟨⟨fun _ => ⟨s, begins_zero run s _⟩, fun _ => Nat.succ_pos _⟩, ?_⟩
      rintro M ⟨⟩
      exact ⟨s, begins_zero run s _, hL⟩
    rcases hfirst : (run a).run.run s with ⟨e | first, v⟩
    · -- The first part stops, and no other begins.
      have hnone (i : Nat) (u : RunState σ) : ¬ Begins run s (a :: as) (i + 1) u := by
        rw [begins_succ_iff, hfirst]
        rintro ⟨_, _, h, -⟩
        cases h
      refine ⟨[L], by simp, ?_, fun i b hb => ?_⟩
      · rw [anyChanged_cons, run_bind_of_error hfirst]
        rw [hfirst] at hL
        simpa using hL
      · cases i with
        | zero => exact hzero b hb
        | succ i => exact ⟨by simp [hnone], by simp⟩
    · obtain ⟨turns, hlength, hevents, hturns⟩ := ih v
      have hbegins {i : Nat} {u : RunState σ} :
          Begins run s (a :: as) (i + 1) u ↔ Begins run v as i u := by
        rw [begins_succ_iff, hfirst]
        exact ⟨fun ⟨_, _, h, hu⟩ => by cases h; exact hu, fun hu => ⟨first, v, rfl, hu⟩⟩
      refine ⟨L :: turns, Nat.succ_le_succ hlength, ?_, fun i b hb => ?_⟩
      · rw [hfirst] at hL
        rw [anyChanged_cons, run_bind_of_ok hfirst, List.flatten_cons, ← List.append_assoc, ← hL,
          ← hevents]
        rcases hothers : (anyChanged run as).run.run v with ⟨e | others, w⟩
        · rw [run_bind_of_error hothers]
        · rw [run_bind_of_ok hothers]
          rfl
      · cases i with
        | zero => exact hzero b hb
        | succ i =>
          obtain ⟨hiff, hblock⟩ := hturns i b hb
          simp only [hbegins]
          exact ⟨Nat.succ_lt_succ_iff.trans hiff, hblock⟩

theorem confines_of_begins (setup : Setup σ) (depth : Nat) (t : Task) (outer : Scope)
    {items : List Value} {i : Nat}
    (h : Begins (runItem setup (runTask setup depth) t outer) s items i u) :
    ∃ L, s.Confines s.world.Awaits s.world.tables.size L u := by
  obtain ⟨b, hrun⟩ := h
  have hkept := kept_confined setup s.world.Awaits s.world.tables.size s
  have hloop := related_anyChanged (items.take i)
    (hkept.related_runItem (hkept.calls_runTask depth) (hkept.refl t) outer)
  obtain ⟨-, -, hconfines⟩ := hloop s s
    ⟨rfl, [], .refl s.world.within_awaits (Nat.le_refl _)⟩
  rwa [hrun] at hconfines

/-- In a turn the task sees the variables of its includes, then its item, then what is
outside the loop. -/
theorem run_read_in_turn {w : World σ} {key : String}
    (houter : ∀ i, Layer.table i ∈ outer → i < w.tables.size)
    (hunbound : w.bound? outer key = none) (x : Value) (host : Host σ) (t : Task) :
    ((t.scope (.table w.tables.size :: outer)).read host key).run (w.newTable [("item", x)]).2 =
      ((Dict.get? t.includeVars key).or
        (if key = "item" then some x else w.lookup outer key), (w.newTable [("item", x)]).2) := by
  let v := (w.newTable [("item", x)]).2
  have hself : v.table w.tables.size = { vars := [("item", x)] } :=
    World.table_newTable_self _ w
  have hkept : ∀ i, Layer.table i ∈ outer → v.table i = w.table i := fun i hi =>
    World.table_newTable_of_lt (houter i hi) _
  have hitem : Dict.get? [("item", x)] key = if key = "item" then some x else none := by
    by_cases hkey : key = "item" <;> simp [hkey, Dict.get?]
  have hnone : v.bound? (t.scope (.table w.tables.size :: outer)) key = none := by
    rw [← World.bound?_congr_of_mem hkept key] at hunbound
    simp only [Task.scope, World.bound?, hself, hunbound, Dict.get?, List.lookup_nil, ite_self]
  have hlookup : v.lookup outer key = w.lookup outer key :=
    World.lookup_congr_of_mem fun i hi => by rw [hkept i hi]
  rw [World.run_read_of_unbound hnone]
  simp only [Task.scope, World.lookup, World.bindingIn, hself, hitem, hlookup]
  by_cases hkey : key = "item"
  · simp only [if_pos hkey, Option.some_or]
    rfl
  · simp only [if_neg hkey, Option.none_or]
    rfl

/-- A task without a condition runs its loop. -/
theorem run_items (hcondition : t.condition? = none) (depth : Nat) (items : List Value)
    (outer : Scope) :
    runTask setup (depth + 1) (t.withItems (some items)) outer =
      anyChanged (runItem setup (runTask setup depth) (t.withItems (some items)) outer) items := by
  have hnone : (t.withItems (some items)).condition? = none := hcondition
  change runTaskWith setup (runTask setup depth) (t.withItems (some items)) outer = _
  unfold runTaskWith
  rw [hnone]
  rfl

/-- The loop over items does what the loops over the parts of the list do one after the
other, the second only after a first that ends well, up to the items of the reported task.
Each turn begins exactly if all turns before it have ended well; it reports one turn of the
task, after those before it. What it sees of a name are the variables of the task's
includes, its own item, and what was outside before the loop: of what the turns before it
have bound, it sees what was registered and the futures of deferred tasks only. -/
theorem items_loop_is_sequence (setup : Setup σ) {t : Task} (hcondition : t.condition? = none)
    (hblind : ItemBlind setup t) (outer : Scope) (s : RunState σ) :
    (∀ depth xs ys,
      let joined := (runTask setup depth (t.withItems (some (xs ++ ys))) outer).run.run s
      let parted := (do
        let first ← runTask setup depth (t.withItems (some xs)) outer
        let rest ← runTask setup depth (t.withItems (some ys)) outer
        return first || rest : Step σ Bool).run.run s
      joined.1 = parted.1 ∧ joined.2.UpToItems t parted.2) ∧
    ∀ depth items,
      let looping := t.withItems (some items)
      let turn := runItem setup (runTask setup depth) looping outer
      (∃ turns : List (List Event), turns.length ≤ items.length ∧
        ((runTask setup (depth + 1) looping outer).run.run s).2.events.toList =
          s.events.toList ++ turns.flatten ∧
        ∀ i x, items[i]? = some x → (i < turns.length ↔ ∃ u, Begins turn s items i u) ∧
          ∀ L, turns[i]? = some L → ∃ u, Begins turn s items i u ∧
            ((turn x).run.run u).2.events.toList = u.events.toList ++ L ∧
            Ran s.current.play (depth + 1) [looping] ((turn x).run.run u).1 L ∧
            Transcript.Opens looping L) ∧
      ∀ i x u, items[i]? = some x → Begins turn s items i u →
        ∃ L, u.events.toList = s.events.toList ++ L ∧
          ((∀ j, Layer.table j ∈ outer → j < s.world.tables.size) → ∀ key,
            ¬ s.world.Awaits key → (∀ e ∈ Transcript.reported L, e.1.register ≠ some key) →
            u.world.bound? outer key = none →
            let w := (u.world.newTable [("item", x)]).2
            ((looping.scope (.table u.world.tables.size :: outer)).read setup.host key).run w =
              ((Dict.get? t.includeVars key).or
                (if key = "item" then some x else s.world.lookup outer key), w)) := by
  have hkept := kept_upToItems hblind
  refine ⟨fun depth xs ys => ?_, fun depth items => ⟨?_, fun i x u hx hbegins => ?_⟩⟩
  · -- Both sides take the turns of the same items; only the lists in their tasks differ.
    cases depth with
    | zero => exact ⟨rfl, .refl s⟩
    | succ depth =>
      have hpart (zs other : List Value) : Related (RunState.UpToItems t)
          (anyChanged (runItem setup (runTask setup depth) (t.withItems (some other)) outer) zs).run
          (anyChanged (runItem setup (runTask setup depth) (t.withItems (some zs)) outer) zs).run :=
        related_anyChanged zs (hkept.related_runItem (hkept.calls_runTask depth)
          (.items (some other) (some zs)) outer)
      have hparts := (hpart xs (xs ++ ys)).bindExcept fun first =>
        (hpart ys (xs ++ ys)).bindExcept fun rest => .pureExcept (first || rest)
      simp only [run_items hcondition, anyChanged_append]
      exact hparts s s (.refl s)
  · have hadds (p : Play) (x : Value) := adds_runItem (adds_runTask setup p depth)
      (t.withItems (some items)) outer x
    have hgrows (x : Value) (v : RunState σ) : ∃ L, ((runItem setup (runTask setup depth)
        (t.withItems (some items)) outer x).run.run v).2.events.toList = v.events.toList ++ L := by
      obtain ⟨L, hL, -⟩ := hadds v.current.play x v rfl
      exact ⟨L, hL.events⟩
    obtain ⟨turns, hlength, hevents, hturns⟩ := exists_turns hgrows items s
    rw [← run_items hcondition] at hevents
    refine ⟨turns, hlength, hevents, fun i x hx => ⟨(hturns i x hx).1, fun L hL => ?_⟩⟩
    obtain ⟨u, hbegins, hblock⟩ := (hturns i x hx).2 L hL
    obtain ⟨_, hconfines⟩ := confines_of_begins setup depth _ outer hbegins
    obtain ⟨L', hL', hran, hopens⟩ := hadds s.current.play x u hconfines.play
    obtain rfl : L = L' := List.append_cancel_left (hblock.symm.trans hL'.events)
    exact ⟨u, hbegins, hblock, hran, hopens⟩
  · -- The turns before are confined to tables of their own, so the outer scope is as it was.
    obtain ⟨L, hconfines⟩ := confines_of_begins setup depth _ outer hbegins
    refine ⟨L, hconfines.events, fun houter key hawaits hregister hunbound => ?_⟩
    have hlookup : u.world.lookup outer key = s.world.lookup outer key :=
      World.lookup_congr_of_mem fun j hj =>
        hconfines.vars j (houter j hj) key hawaits fun _ => hregister
    have hlt : ∀ j, Layer.table j ∈ outer → j < u.world.tables.size := fun j hj =>
      Nat.lt_of_lt_of_le (houter j hj) hconfines.size_le
    rw [← hlookup]
    exact run_read_in_turn hlt hunbound x setup.host (t.withItems (some items))

/-- A task binds its item as a fact under a name of the play. -/
def tallying : Task :=
  { name := "t", command := "set_fact", vars := [("x", .string "{{ item }}")],
    register := some "r" }

/-- A turn of its loop over two items. -/
def tallyingTurn : Value → Step Unit Bool :=
  runItem reciting (runTask reciting 0) (tallying.withItems (some [.int 1, .int 2]))
    [.table 1, .table 0]

/-- The state in which the turn for the second item begins. -/
def tallied : RunState Unit := ((anyChanged tallyingTurn [.int 1]).run.run numbered).2

theorem items_loop_is_sequence_tallying :
    let outer : Scope := [.table 1, .table 0]
    let joined := (runTask reciting 1 (tallying.withItems (some [.int 1, .int 2])) outer).run.run
      numbered
    let parted := (do
      let first ← runTask reciting 1 (tallying.withItems (some [.int 1])) outer
      let rest ← runTask reciting 1 (tallying.withItems (some [.int 2])) outer
      return first || rest : Step Unit Bool).run.run numbered
    tallying.condition? = none ∧ ItemBlind reciting tallying ∧
      joined.1 = parted.1 ∧ joined.2.UpToItems tallying parted.2 ∧
      Begins tallyingTurn numbered [.int 1, .int 2] 1 tallied ∧
      (((tallying.scope (.table tallied.world.tables.size :: outer)).read reciting.host "x").run
        (tallied.world.newTable [("item", .int 2)]).2).1 = some (.int 0) := by
  have hblind : ItemBlind reciting tallying := fun _ command _ xs ys =>
    Command.steady_of_external (fun _ _ _ => rfl) command
  obtain ⟨hparts, hturns⟩ :=
    items_loop_is_sequence reciting rfl hblind [.table 1, .table 0] numbered
  obtain ⟨hanswer, hstate⟩ := hparts 1 [.int 1] [.int 2]
  have hfirst : ((anyChanged tallyingTurn [.int 1]).run.run numbered).1 = .ok false := by cbv
  have hbegins : Begins tallyingTurn numbered [.int 1, .int 2] 1 tallied :=
    ⟨false, Prod.ext hfirst rfl⟩
  obtain ⟨L, hevents, hsees⟩ := (hturns 0 [.int 1, .int 2]).2 1 (.int 2) tallied rfl hbegins
  have houter : ∀ j, Layer.table j ∈ [Layer.table 1, .table 0] →
      j < numbered.world.tables.size := by
    intro j hj
    simp only [List.mem_cons, Layer.table.injEq, List.not_mem_nil, or_false] at hj
    rcases hj with rfl | rfl <;> decide
  have hawaits : ¬ numbered.world.Awaits "x" := by
    rintro ⟨i, f, job, hf, -⟩
    cases hf
  have hunbound : tallied.world.bound? [.table 1, .table 0] "x" = none := by cbv
  have hregisters : (Transcript.reported tallied.events.toList).map (fun e => e.1.register) =
      [some "r"] := by cbv
  have hregister : ∀ e ∈ Transcript.reported L, e.1.register ≠ some "x" := by
    obtain rfl : _ = L := hevents
    intro e he hx
    have hmem := List.mem_map_of_mem (f := fun e => e.1.register) he
    rw [hregisters, hx] at hmem
    exact absurd hmem (by decide)
  have hread := hsees houter "x" hawaits hregister hunbound
  exact ⟨rfl, hblind, hanswer, hstate, hbegins, (congrArg Prod.fst hread).trans rfl⟩

end Runner

end PlaybookRunner
