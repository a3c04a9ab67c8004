import PlaybookRunner.Proofs.Extents
import PlaybookRunner.Proofs.Handlers

/-!
# The results of module calls

The tasks of a module may call modules in turn, loop and be skipped. Whatever the nesting,
the result of a call says that something was changed exactly if a command in the extent of
the call has said so, and it says nothing else.
-/

namespace PlaybookRunner

variable {σ : Type}

namespace Runner

open Step RunState

/-- A command in the extent of a task returns a result that says it changed something. -/
def ChangesIn (setup : Setup σ) (depth : Nat) (t : Task) (outer : Scope) (s : RunState σ) : Prop :=
  ∃ calls T result, Reaches setup depth t outer s calls T ∧ T.Returns setup result ∧
    result.changed = true

/-- Tasks that end well answer whether a command in their extent has changed something. -/
def Accurate (setup : Setup σ) (depth : Nat) : Prop :=
  ∀ {t : Task} {outer : Scope} {s v : RunState σ} {b : Bool},
    (runTask setup depth t outer).run.run s = (.ok b, v) →
      (b = true ↔ ChangesIn setup depth t outer s)

/-- A command in the extent of a module call that is made in a turn does so. -/
def Turn.ChangesInside (setup : Setup σ) (depth : Nat) (T : Turn σ) : Prop :=
  ∃ c sub scope u, Enters setup depth T c sub scope u ∧ ChangesIn setup depth sub scope u

variable {setup : Setup σ} {depth : Nat} {v : RunState σ} {b : Bool} {T : Turn σ}

/-- The tasks of a module that end well answer for their extents. -/
theorem changed_iff_changesInside (hsub : Accurate setup depth)
    {prepared : Prepared} {w : World σ} {m : Module} (hprepared : T.Prepares setup prepared w)
    (haction : prepared.action = .call m)
    (h : (anyChanged (fun sub => runTask setup depth sub (.table w.tables.size :: T.inner))
      m.tasks).run.run (T.opened prepared w) = (.ok b, v)) :
    b = true ↔ T.ChangesInside setup depth := by
  rw [anyChanged_iff_exists h]
  constructor
  · rintro ⟨before, sub, after, first, u, u', htasks, hbefore, hchanged⟩
    exact ⟨_, sub, _, u, .task hprepared haction htasks hbefore, (hsub hchanged).mp rfl⟩
  · rintro ⟨c, sub, scope, u, ⟨hprepared', haction', htasks, hbefore⟩, hchanges⟩
    obtain ⟨rfl, rfl⟩ := hprepared.unique hprepared'
    cases haction.symm.trans haction'
    rw [htasks] at h
    obtain ⟨others, hrest⟩ := anyChanged_append_ok h hbefore
    obtain ⟨first, u', -, hfirst, -⟩ := anyChanged_cons_ok hrest
    obtain rfl := (hsub hfirst).mpr hchanges
    exact ⟨_, sub, _, _, u, u', htasks, hbefore, hfirst⟩

/-- A turn that ends well answers for its command, or for the tasks of its module. -/
theorem changed_iff_of_turn (hsub : Accurate setup depth)
    (h : T.run setup (runTask setup depth) = (.ok b, v)) :
    b = true ↔ (∃ result, T.Returns setup result ∧ result.changed = true) ∨
      T.ChangesInside setup depth := by
  obtain ⟨prepared, w, hprepared, hacting⟩ := Turn.run_ok h
  cases haction : prepared.action with
  | call m =>
    obtain ⟨inner, hinner, -⟩ := Turn.calling_ok haction hacting
    rw [changed_iff_changesInside hsub hprepared haction hinner]
    simp only [hprepared.not_returns haction, false_and, exists_false, false_or]
  | run command =>
    have hnone : ¬ T.ChangesInside setup depth := fun ⟨_, _, _, _, henters, _⟩ =>
      hprepared.not_enters haction henters
    simp only [hnone, or_false, hprepared.returns_iff haction]
    rcases Turn.performing_ok haction hacting with
      ⟨hfuture, rfl⟩ | ⟨hfuture, result, hdone, rfl⟩
    · refine ⟨(nomatch ·), ?_⟩
      rintro ⟨result, ⟨hnow, -⟩, -⟩
      rw [hnow] at hfuture
      cases hfuture
    · simp only [hfuture, hdone, true_and, Except.ok.injEq, exists_eq_left']

theorem accurate (setup : Setup σ) (depth : Nat) : Accurate setup depth := by
  -- By induction on the nesting: what a turn calls starts one level further down.
  induction depth with
  | zero => exact fun h => nomatch h
  | succ depth ih =>
    intro t outer s v b h
    rw [changed_iff_takesTurn h]
    constructor
    · rintro ⟨T, u, hturn, hrun⟩
      rcases (changed_iff_of_turn ih hrun).mp rfl with
        ⟨result, hresult, hchanged⟩ | ⟨c, sub, scope, u, henters, calls, T', result, hreaches, hend⟩
      · exact ⟨[], T, result, .turn hturn, hresult, hchanged⟩
      · exact ⟨calls ++ [c], T', result, .inside hturn henters hreaches, hend⟩
    · rintro ⟨calls, T', result, hreaches, hresult, hchanged⟩
      cases hreaches with
      | turn hturn =>
        obtain ⟨changed, u, hrun⟩ := hturn.run_ok h
        obtain rfl := (changed_iff_of_turn ih hrun).mpr (.inl ⟨result, hresult, hchanged⟩)
        exact ⟨_, u, hturn, hrun⟩
      | inside hturn henters hsub =>
        obtain ⟨changed, u, hrun⟩ := hturn.run_ok h
        have hinside : Turn.ChangesInside setup depth _ :=
          ⟨_, _, _, _, henters, _, T', result, hsub, hresult, hchanged⟩
        obtain rfl := (changed_iff_of_turn ih hrun).mpr (.inr hinside)
        exact ⟨_, u, hturn, hrun⟩

theorem recorded_afterCompletion (t : Task) (result : TaskResult) (s : RunState σ) :
    (s.afterCompletion t result).world.recorded = s.world.recorded.push (t, result) := by
  unfold afterCompletion
  cases t.register with
  | none => rfl
  | some name =>
    change Array.push (World.modifyTable _ _ _).recorded _ = _
    rfl

theorem events_afterCompletion (t : Task) (result : TaskResult) (s : RunState σ) :
    (s.afterCompletion t result).events = s.events.push (.finishTask t (some result)) := by
  unfold afterCompletion
  cases t.register <;> rfl

theorem mem_notified_afterCompletion {t : Task} {result : TaskResult} {s : RunState σ}
    {name : String} :
    name ∈ (s.afterCompletion t result).current.notified ↔ name ∈ s.current.notified ∨
      (result.failed = false ∧ result.changed = true) ∧ name ∈ t.notify := by
  have hreport (s : RunState σ) : name ∈ (s.report t result).current.notified ↔
      name ∈ s.current.notified ∨
        (result.failed = false ∧ result.changed = true) ∧ name ∈ t.notify := by
    unfold report
    by_cases hnotify : !result.failed && result.changed
    · simp only [if_pos hnotify, PlayState.mem_notify]
      simp_all
    · simp only [if_neg hnotify]
      simp_all
  unfold afterCompletion
  cases t.register with
  | none => exact hreport s
  | some register => exact hreport _

/-- A module call that ends well leaves one result after those of its tasks. It says that
something was changed exactly if a command in the extent of the call has returned such a
result, whatever modules, loops, conditions and skipped tasks are around that command, and
then the names of the call are notified. The result says nothing else. A command that is
only dispatched returns nothing yet. -/
theorem call_result_changed_iff (setup : Setup σ) (depth : Nat) (T : Turn σ) {m : Module} {b : Bool}
    {v : RunState σ} (hmodule : T.state.current.play.module? T.task.command = some m)
    (h : T.run setup (runTask setup depth) = (.ok b, v)) :
    ∃ prepared w inner result, T.Prepares setup prepared w ∧ prepared.action = .call m ∧
      (anyChanged (fun sub => runTask setup depth sub (.table w.tables.size :: T.inner))
        m.tasks).run.run (T.opened prepared w) = (.ok b, inner) ∧
      v.world.recorded = inner.world.recorded.push (T.task, result) ∧
      v.events = inner.events.push (.finishTask T.task (some result)) ∧
      result.data = [] ∧ result.failed = false ∧ result.changed = b ∧
      (result.changed = true ↔ T.ChangesInside setup depth) ∧
      ∀ name, name ∈ v.current.notified ↔ name ∈ inner.current.notified ∨
        result.changed = true ∧ name ∈ T.task.notify := by
  obtain ⟨prepared, w, hprepared, hacting⟩ := Turn.run_ok h
  have haction : prepared.action = .call m := by
    have hbound := Task.bound_of_prepare setup T.state.current.play T.task T.inner T.state.world
      prepared (congrArg Prod.fst hprepared)
    cases haction : prepared.action with
    | call m' => rw [Option.some.inj (hmodule.symm.trans (hbound.call m' haction))]
    | run command =>
      rw [(hbound.run command haction).1] at hmodule
      cases hmodule
  obtain ⟨inner, hinner, rfl⟩ := Turn.calling_ok haction hacting
  have hchanged : b = true ↔ T.ChangesInside setup depth :=
    changed_iff_changesInside (accurate setup depth) hprepared haction hinner
  refine ⟨prepared, w, inner, _, hprepared, haction, hinner, recorded_afterCompletion _ _ _,
    events_afterCompletion _ _ _, ?_, ?_, ?_, ?_, fun name => ?_⟩
  · cases b <;> rfl
  · cases b <;> rfl
  · cases b <;> rfl
  · rw [← hchanged]
    cases b <;> simp [TaskResult.ok, TaskResult.ofChange]
  · rw [mem_notified_afterCompletion]
    cases b <;> simp [TaskResult.ok, TaskResult.ofChange]

/-- A module loops over the call of another, whose task is skipped for the first item. -/
def nested : Play where
  name := "p"
  modules := [
    ("outer", {
      name := "outer"
      tasks := [{ name := "loop", command := "inner",
                  items := some [.bool false, .bool true] }] }),
    ("inner", {
      name := "inner"
      tasks := [{ name := "t", command := "touch", condition := some "{{ item }}" }] })]

/-- A call of the outer module notifies a handler. -/
def nestedCall : Turn Unit where
  task := { name := "c", command := "outer", notify := ["h"] }
  scope := [.table 0]
  state := { world := { tables := #[{}], host := () }, current := { play := nested, table := 0 } }

theorem call_result_changed_nested :
    nestedCall.state.current.play.module? nestedCall.task.command = nested.module? "outer" ∧
      (nestedCall.run touching (runTask touching 3)).1 = .ok true ∧
      nestedCall.ChangesInside touching 3 ∧
      "h" ∈ (nestedCall.run touching (runTask touching 3)).2.current.notified := by
  have hmodule : nestedCall.state.current.play.module? nestedCall.task.command = some {
      name := "outer"
      tasks := [{ name := "loop", command := "inner",
                  items := some [.bool false, .bool true] }] } := by cbv
  have hrun : (nestedCall.run touching (runTask touching 3)).1 = .ok true := by cbv
  obtain ⟨prepared, w, inner, result, -, -, -, -, -, -, -, hchanged, hinside, hnotified⟩ :=
    call_result_changed_iff touching 3 nestedCall hmodule (Prod.ext hrun rfl)
  exact ⟨rfl, hrun, hinside.mp hchanged,
    (hnotified "h").mpr (.inr ⟨hchanged, List.mem_singleton_self _⟩)⟩

end Runner

end PlaybookRunner
