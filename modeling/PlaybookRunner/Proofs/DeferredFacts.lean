import Mathlib
import PlaybookRunner.Proofs.Reruns
import PlaybookRunner.Proofs.ScopeForest

/-!
# What deferred jobs leave of the variables

A job that binds no facts leaves every table as it is, and so does the forcing of its
future while no pending job binds any, whoever comes to force it and when. A deferred
task then changes no variable of the scopes around it. A deferred command that binds
facts does: they go to the owner of the scope in which the task was met.
-/

namespace PlaybookRunner

variable {σ α β : Type} {host : Host σ} {w v : World σ}

/-- The facts that a command binds. -/
def Command.facts : Command → Vars
  | .setFact facts => if (Dict.get? facts Arguments.rawKey).isSome then [] else facts
  | _ => []

/-- The job binds no facts, and registers no other job. -/
def Job.Factless : Job → Prop
  | .register .. => False
  | .command c _ _ => c.facts = []
  | _ => True

/-- No job that is pending binds facts. -/
def World.Factless (w : World σ) : Prop :=
  ∀ (i : Nat) (f : Future) (job : Job), w.futures[i]? = some f → f.progress = .pending job →
    job.Factless

/-- Whatever a task comes to run in a play, it binds no facts. -/
def Task.Factless (registry : Registry) (play : Play) (t : Task) : Prop :=
  ∀ (name args : String) (vars : Vars) (prepared : Prepared) (command : Command),
    bindAction registry play t name args vars = .ok prepared →
      prepared.action = .run command → command.facts = []

/-- Among the built-in commands only one binds facts. -/
theorem Task.factless_builtin {t : Task} (h : t.command ≠ "set_fact") (play : Play) :
    t.Factless Registry.builtins play := by
  intro name args vars prepared command hprepared hrun
  obtain ⟨binder, hbinder, hcommand⟩ :=
    Runner.exists_binder ((bound_of_bindAction hprepared).run command hrun).2
  obtain ⟨before, after, hsplit, -⟩ := List.lookup_eq_some_iff.mp hbinder
  have hmem : (t.command, binder) ∈ Registry.builtins := hsplit ▸ List.mem_append_cons_self
  simp only [Registry.builtins, List.mem_cons, Prod.mk.injEq, h, false_and, List.not_mem_nil,
    or_false] at hmem
  rcases hmem with ⟨-, rfl⟩ | ⟨-, rfl⟩ | ⟨-, rfl⟩ | ⟨-, rfl⟩
  · obtain ⟨params, -, rfl⟩ := map_eq_ok_iff.mp hcommand
    rfl
  · obtain ⟨params, -, rfl⟩ := map_eq_ok_iff.mp hcommand
    rfl
  · unfold Command.bindCheck at hcommand
    split at hcommand
    · cases hcommand
    · split at hcommand <;> cases hcommand
      rfl
  · obtain ⟨params, -, rfl⟩ := map_eq_ok_iff.mp hcommand
    rfl

/-- A command keeps what its facts, its readings and changes of the surroundings keep. -/
theorem Command.agree_runWith_of_facts {P : World σ → Prop} {force : Forcing σ}
    (hhost : ∀ (w : World σ) (s : σ), P w → P { w with host := s })
    (hforce : ∀ i, Agree P (force i) (force i)) {command : Command} {scope : Scope}
    (hfacts : ∀ w, P w → P (w.extend scope command.facts)) (t : Task) :
    Agree P (command.runWith host force scope t) (command.runWith host force scope t) := by
  have hkeeps : KeepsHost (fun v w : World σ => v = w ∧ P v) Eq := by
    refine ⟨?_, ?_⟩
    · rintro v _ ⟨rfl, -⟩
      rfl
    · rintro v _ s _ ⟨rfl, hv⟩ rfl
      exact ⟨rfl, hhost v s hv⟩
  refine related_runWith_of_host hkeeps command (steady_eq host t command)
    (fun key _ => Scope.agree_readWith hforce scope key) ?_
  rintro facts rfl
  unfold runSetFact
  simp only [Command.facts] at hfacts
  cases hraw : Dict.get? facts Arguments.rawKey with
  | some raw => exact .pure _
  | none =>
    simp only [hraw, Option.isSome_none, Bool.false_eq_true, if_false] at hfacts
    by_cases hempty : facts.isEmpty
    · simpa only [if_pos hempty] using Related.pure _
    · simp only [if_neg hempty]
      exact Agree.modifyThen hfacts (.pure _)

/-- An invariant that pending jobs keep when they are forced, each of which fits a
condition. -/
structure KeptByPending (P : World σ → Prop) (Q : Job → Prop) : Prop where
  pending : ∀ {w : World σ}, P w → w.AllPending Q
  progress : ∀ {w v : World σ}, P w → v.tables = w.tables → v.AllPending Q → P v
  facts : ∀ {w : World σ} {c : Command} {scope : Scope} {t : Task}, Q (.command c scope t) → P w →
    P (w.extend scope c.facts)
  register : ∀ {w : World σ} {table : Nat} {name : String} {later : Job},
    Q (.register table name later) → P w → P (w.addFuture table name later).2

namespace KeptByPending

variable {P : World σ → Prop} {Q : Job → Prop} (hP : KeptByPending P Q)

include hP

theorem setHost (w : World σ) (s : σ) (hw : P w) : P { w with host := s } :=
  hP.progress hw rfl ((hP.pending hw).of_futures rfl)

theorem agree_job {inner : Forcing σ} (hinner : ∀ i, Agree P (inner i) (inner i)) {job : Job}
    (hjob : Q job) :
    Agree P (job.runWith host inner) (job.runWith host inner) := by
  cases job with
  | read scope key => exact (Scope.agree_readWith hinner scope key).bind fun _ => .pure _
  | evaluate scope text =>
    apply (Expr.related_run (Expr.compile text) fun k _ =>
      Scope.agree_readWith hinner scope k).bind
    intro o
    cases o <;> exact .pure _
  | register table name later => exact .modifyThen (fun _ => hP.register hjob) (.pure _)
  | command command scope t =>
    have hrecord (result : TaskResult) : ∀ v, P v → P (v.record t result) := fun v hv =>
      hP.progress hv rfl ((hP.pending hv).of_futures rfl)
    apply (Command.agree_runWith_of_facts hP.setHost hinner (fun _ => hP.facts hjob) t).bind
    intro o
    cases o with
    | ok result => exact .modifyThen (hrecord result) (.pure _)
    | error e => exact .modifyThen (hrecord _) (.pure _)
  | _ => exact .pure _

theorem force {v : World σ} (hv : P v) (i : Nat) : P ((Future.force host i).run v).2 := by
  refine Future.force_induction (motive := fun _ v p => P v → P p.2) ?_ ?_ i v hv
  · exact fun _ _ _ h => h
  · intro inner hinner i v f job hf hp hv
    have hjob : Agree P (job.runWith host inner) (job.runWith host inner) :=
      hP.agree_job (fun i => .of_eq fun v hv => ⟨rfl, hinner i v hv⟩) (hP.pending hv i f job hf hp)
    have hstart : P (v.start i) :=
      hP.progress hv rfl (((hP.pending hv).setProgress i (p := .running) (by simp)).of_futures rfl)
    rw [Future.run_forceBy_pending hf hp]
    have hran := hjob.keeps hstart
    exact hP.progress hran rfl
      ((hP.pending hran).setProgress i (Progress.ofOutcome_ne_pending _))

theorem agree_force (i : Nat) : Agree P (Future.force host i) (Future.force host i) :=
  .of_eq fun _ hv => ⟨rfl, hP.force hv i⟩

theorem agree_read (scope : Scope) (key : String) :
    Agree P (scope.read host key) (scope.read host key) :=
  Scope.agree_readWith hP.agree_force scope key

end KeptByPending

namespace World

theorem Factless.setProgress (h : w.Factless) {i : Nat} {p : Progress}
    (hp : ∀ job, p ≠ .pending job) : (w.setProgress i p).Factless := AllPending.setProgress h i hp

theorem Factless.of_futures (h : w.Factless) (hv : v.futures = w.futures) : v.Factless :=
  AllPending.of_futures h hv

theorem Factless.addFuture (h : w.Factless) {job : Job} (hjob : job.Factless) (table : Nat)
    (name : String) : (w.addFuture table name job).2.Factless :=
  AllPending.addFuture h hjob table name

theorem Settled.factless (h : w.Settled) : w.Factless := fun i f job hf hjob =>
  absurd hjob (h i f job hf)

/-- The tables are the same, and still no pending job binds facts. -/
structure Untouched (w v : World σ) : Prop where
  factless : v.Factless
  tables : v.tables = w.tables

theorem Untouched.kept (w : World σ) : KeptByPending w.Untouched Job.Factless where
  pending h := h.factless
  progress h htables hpending := ⟨hpending, htables.trans h.tables⟩
  facts {_ c scope _} hjob h := by
    have hnone : c.facts = [] := hjob
    rw [hnone]
    exact h
  register hjob _ := hjob.elim

/-- Forcing leaves the tables as they are while no pending job binds facts. -/
theorem Untouched.force (h : w.Untouched v) (i : Nat) :
    w.Untouched ((Future.force host i).run v).2 := (Untouched.kept w).force h i

theorem Untouched.agree_force (w : World σ) (i : Nat) :
    Agree w.Untouched (Future.force host i) (Future.force host i) :=
  (Untouched.kept w).agree_force i

theorem Untouched.agree_read (w : World σ) (scope : Scope) (key : String) :
    Agree w.Untouched (scope.read host key) (scope.read host key) :=
  (Untouched.kept w).agree_read scope key

/-- So do requests, whatever futures they come to force and in whatever order. -/
theorem Untouched.session (hw : w.Factless) {requests : List Request}
    (hrequests : ∀ r ∈ requests, r.Observes) :
    w.Untouched ((PlaybookRunner.session host requests).run w).2 := by
  have hagree : Agree w.Untouched (PlaybookRunner.session host requests)
      (PlaybookRunner.session host requests) := by
    apply Related.mapM
    intro r hr
    rw [← Request.serveWith_force]
    refine r.agree_serveWith (Untouched.agree_force w) fun table name job hadd => ?_
    exact ((hadd ▸ hrequests r hr : (Request.add table name job).Observes)).elim
  exact hagree.keeps ⟨hw, rfl⟩

/-- The variables of the tables there were are the same, and still no pending job binds
facts. -/
structure SameVars (w v : World σ) : Prop where
  factless : v.Factless
  size_le : w.tables.size ≤ v.tables.size
  vars : ∀ i < w.tables.size, (v.table i).vars = (w.table i).vars

theorem vars_addFuture (table : Nat) (name : String) (job : Job) (w : World σ) (i : Nat) :
    ((w.addFuture table name job).2.table i).vars = (w.table i).vars := by
  rw [table_eq, table_eq]
  change ((w.tables.modify table _)[i]?.getD {}).vars = _
  rw [Array.getElem?_modify]
  split
  · cases w.tables[i]? <;> rfl
  · rfl

namespace SameVars

theorem refl (h : w.Factless) : w.SameVars w := ⟨h, Nat.le_refl _, fun _ _ => rfl⟩

theorem trans {u : World σ} (h : w.SameVars v) (h' : v.SameVars u) : w.SameVars u where
  factless := h'.factless
  size_le := Nat.le_trans h.size_le h'.size_le
  vars i hi := (h'.vars i (Nat.lt_of_lt_of_le hi h.size_le)).trans (h.vars i hi)

theorem of_untouched (h : w.Untouched v) : w.SameVars v where
  factless := h.factless
  size_le := by rw [h.tables]
  vars i _ := by rw [table_eq, table_eq, h.tables]

theorem newTable (h : w.Factless) (vars : Vars) : w.SameVars (w.newTable vars).2 where
  factless := h.of_futures rfl
  size_le := (writes_newTable vars w).size_le
  vars i hi := by rw [table_newTable_of_lt hi]

theorem addFuture (h : w.Factless) {job : Job} (hjob : job.Factless) (table : Nat)
    (name : String) : w.SameVars (w.addFuture table name job).2 where
  factless := h.addFuture hjob table name
  size_le := Nat.le_of_eq (size_modifyTable ..).symm
  vars i _ := vars_addFuture table name job w i

end SameVars

end World

namespace Step

variable {p : Play} {x : Step σ α} {f : α → Step σ β}

/-- While the play runs and no pending job binds facts, the part changes no variable of
the tables that are there. -/
def SparesVars (p : Play) (x : Step σ α) : Prop :=
  ∀ s, s.current.play = p → s.world.Factless →
    x.Ends s fun _ v => v.current.play = p ∧ s.world.SameVars v.world

namespace SparesVars

theorem pure (a : α) : SparesVars p (pure a : Step σ α) := fun _ hp hs => ⟨hp, .refl hs⟩

theorem throw (e : Stop) : SparesVars p (throw e : Step σ α) := fun _ hp hs => ⟨hp, .refl hs⟩

theorem bind (hx : SparesVars p x) (hf : ∀ a, SparesVars p (f a)) : SparesVars p (x >>= f) := by
  intro s hp hs
  apply (hx s hp hs).bind
  · rintro a v ⟨hp', hv⟩
    exact (hf a v hp' hv.factless).mono fun _ _ h => ⟨h.1, hv.trans h.2⟩
  · exact fun _ _ h => h

theorem getThen {g : RunState σ → Step σ α}
    (h : ∀ s, s.current.play = p → s.world.Factless → SparesVars p (g s)) :
    SparesVars p (get >>= g) := fun s hp hs => h s hp hs s hp hs

theorem emit (e : Event) : SparesVars p (Step.emit e : Step σ Unit) :=
  fun _ hp hs => ⟨hp, .refl hs⟩

theorem inWorld {z : RunM σ α} (h : ∀ w : World σ, w.Factless → w.SameVars (z.run w).2) :
    SparesVars p (Step.inWorld z) := fun s hp hs => ⟨hp, h s.world hs⟩

end SparesVars

end Step

namespace Runner

open Step World

variable {setup : Setup σ} {p : Play} {t : Task}

theorem sparesVars_fail (name args : String) (cause : Error) :
    SparesVars p (reportFailure t name args cause >>= fun _ =>
      failTask (α := α) name cause : Step σ α) :=
  (SparesVars.bind (.emit _) fun _ => .emit _).bind fun _ => .getThen fun _ _ _ => .throw _

/-- The dispatch of a command that binds no facts. -/
theorem sparesVars_dispatch {command : Command} (hcommand : command.facts = [])
    (name future : String) (scope : Scope) :
    SparesVars p (dispatch setup t name future command scope) := by
  apply SparesVars.getThen
  intro s hp hs
  have hjob : (Job.command command scope t).Factless := hcommand
  have hadd : SparesVars p (inWorld fun w : World σ =>
      w.addFuture s.current.table future (.command command scope t)) :=
    .inWorld fun w hw => .addFuture hw hjob _ _
  have hforce (i : Nat) : SparesVars p (inWorld (Future.force setup.host i)) :=
    .inWorld fun w hw => .of_untouched (Untouched.force ⟨hw, rfl⟩ i)
  refine hadd.bind fun i => (hforce i).bind fun _ => (SparesVars.emit _).bind fun _ => ?_
  exact fun v hv hw => ⟨hv, .refl hw⟩

theorem sparesVars_starting (hdeferred : t.isDeferred = true)
    (call : Task → Scope → Step σ Bool) (scope : Scope) {r : Except Unprepared Prepared}
    (hcalls : ∀ prepared, r = .ok prepared → t.Calls p prepared)
    (hfacts : ∀ prepared command, r = .ok prepared → prepared.action = .run command →
      command.facts = []) :
    SparesVars p (starting setup call t scope r) := by
  cases r with
  | error u => exact sparesVars_fail u.name u.args u.cause
  | ok prepared =>
    refine (SparesVars.emit _).bind fun _ => ?_
    unfold acting performing
    cases haction : prepared.action with
    | call m =>
      -- A module call that is deferred is refused before it starts.
      have hnot : t.isDeferred = false := (hcalls prepared rfl m haction).2
      rw [hdeferred] at hnot
      cases hnot
    | run command =>
      dsimp only
      cases hfuture : futureName? t prepared.name with
      | none =>
        rw [not_isDeferred hfuture] at hdeferred
        cases hdeferred
      | some future =>
        exact (sparesVars_dispatch (hfacts prepared command rfl haction) prepared.name future
          scope).bind fun _ => .pure _

theorem sparesVars_runOnce (hdeferred : t.isDeferred = true)
    (hfacts : t.Factless setup.registry p) (call : Task → Scope → Step σ Bool) (outer : Scope) :
    SparesVars p (runOnce setup call t outer) := by
  rintro s rfl hs
  have hsame : s.world.SameVars
      ((t.prepare setup s.current.play (t.scope outer)).run s.world).2 :=
    .of_untouched ((Task.agree_prepare s.current.play t
      (Untouched.agree_read s.world (t.scope outer))).keeps ⟨hs, rfl⟩)
  have hbound := Task.exists_bindAction_of_prepare setup s.current.play t (t.scope outer) s.world
  have hstart : SparesVars s.current.play (starting setup call t (t.scope outer)
      ((t.prepare setup s.current.play (t.scope outer)).run s.world).1) := by
    refine sparesVars_starting hdeferred call _ (fun prepared hr => ?_)
      fun prepared command hr haction => ?_
    · obtain ⟨name, args, vars, h⟩ := hbound prepared hr
      exact Task.calls_of_bindAction h
    · obtain ⟨name, args, vars, h⟩ := hbound prepared hr
      exact hfacts name args vars prepared command h haction
  let v : RunState σ :=
    { s with world := ((t.prepare setup s.current.play (t.scope outer)).run s.world).2 }
  have hrest := hstart v rfl hsame.factless
  rw [runOnce_eq]
  exact ⟨hrest.1, hsame.trans hrest.2⟩

theorem sparesVars_anyChanged {run : α → Step σ Bool} (as : List α)
    (hrun : ∀ a, SparesVars p (run a)) : SparesVars p (anyChanged run as) := by
  induction as with
  | nil => exact .pure _
  | cons a as ih => exact (hrun a).bind fun _ => ih.bind fun _ => .pure _

theorem sparesVars_runTaskWith (hdeferred : t.isDeferred = true)
    (hfacts : t.Factless setup.registry p) (call : Task → Scope → Step σ Bool) (outer : Scope) :
    SparesVars p (runTaskWith setup call t outer) := by
  have honce (scope : Scope) : SparesVars p (runOnce setup call t scope) :=
    sparesVars_runOnce hdeferred hfacts call scope
  have hitem (item : Value) : SparesVars p (runItem setup call t outer item) :=
    (SparesVars.inWorld fun _ hw => .newTable hw _).bind fun _ => honce _
  rw [runTaskWith_eq]
  have hdue : SparesVars p (inWorld (t.due setup outer)) :=
    .inWorld fun w hw => .of_untouched
      ((t.agree_due (Untouched.agree_read w (t.scope outer))).keeps ⟨hw, rfl⟩)
  apply hdue.bind
  rintro (e | _ | _)
  · exact sparesVars_fail t.name "" (.expr e)
  · exact .pure _
  · change SparesVars p (runDue setup call t outer)
    unfold runDue
    cases t.items with
    | none => exact honce outer
    | some items => exact sparesVars_anyChanged items hitem

theorem sparesVars_runTask (hdeferred : t.isDeferred = true)
    (hfacts : t.Factless setup.registry p) (depth : Nat) (outer : Scope) :
    SparesVars p (runTask setup depth t outer) := by
  cases depth with
  | zero => exact .throw _
  | succ depth => exact sparesVars_runTaskWith hdeferred hfacts _ outer

/-- A deferred task that binds no facts keeps the variables of every scope: over its whole
turn, and, once its job is bound to a future, however and whenever requests come to run
the job. What a name reads as, if it stands for no future, is then the same before and
after. -/
theorem deferred_task_keeps_variables (setup : Setup σ) {t : Task} {s : RunState σ}
    (hdeferred : t.isDeferred = true) (hfacts : t.Factless setup.registry s.current.play)
    (hworld : s.world.Factless) :
    (∀ (depth : Nat) (outer : Scope), ∀ i < s.world.tables.size,
      (((runTask setup depth t outer).run.run s).2.world.table i).vars =
        (s.world.table i).vars) ∧
    ∀ (name args : String) (vars : Vars) (prepared : Prepared) (command : Command),
      Task.bindAction setup.registry s.current.play t name args vars = .ok prepared →
      prepared.action = .run command →
      ∀ (future : String) (scope : Scope) (requests : List Request),
        (∀ r ∈ requests, r.Observes) →
          let w := (s.world.addFuture s.current.table future (.command command scope t)).2
          let v := ((session setup.host requests).run w).2
          v.tables = w.tables ∧ (∀ i, (v.table i).vars = (s.world.table i).vars) ∧
            ∀ (inner : Scope) (key : String), w.bound? inner key = none →
              ((inner.read setup.host key).run v).1 = ((inner.read setup.host key).run w).1 := by
  refine ⟨fun depth outer i hi => ?_, fun name args vars prepared command hbind haction future
    scope requests hrequests => ?_⟩
  · exact (sparesVars_runTask hdeferred hfacts depth outer s rfl hworld).2.vars i hi
  · intro w v
    have hjob : (Job.command command scope t).Factless :=
      hfacts name args vars prepared command hbind haction
    have hw : w.Factless := hworld.addFuture hjob _ _
    have hv : w.Untouched v := Untouched.session hw hrequests
    have htable (i : Nat) : v.table i = w.table i := by rw [table_eq, table_eq, hv.tables]
    refine ⟨hv.tables, fun i => ?_, fun inner key hunbound => ?_⟩
    · rw [htable]
      exact vars_addFuture ..
    · have hunbound' : v.bound? inner key = none := bound?_congr htable inner key ▸ hunbound
      rw [run_read_of_unbound hunbound, run_read_of_unbound hunbound']
      exact lookup_congr (fun i => by rw [htable]) inner key

/-- A play with a variable that its tasks read. -/
def numbered : RunState Unit where
  world := { tables := #[{}, { vars := [("x", .int 0)] }], host := () }
  current := { play := { name := "p", vars := [("x", .int 0)] }, table := 1 }

theorem settled_numbered : numbered.world.Settled := fun i f job hf => by cases hf

theorem deferred_task_keeps_variables_numbered :
    let t : Task := { name := "t", command := "debug", args := "var=x", future := some "f" }
    let command : Command := .debug none (some "x")
    let prepared : Prepared :=
      { name := "t", args := "var=x", params := [("var", .string "x")], action := .run command }
    let w := (numbered.world.addFuture 1 "f" (.command command [.table 1] t)).2
    let v := ((session reciting.host [.get 0]).run w).2
    t.isDeferred = true ∧ t.Factless reciting.registry numbered.current.play ∧
      numbered.world.Factless ∧
      Task.bindAction reciting.registry numbered.current.play t "t" "var=x" [] = .ok prepared ∧
      (((runTask reciting 1 t [.table 1, .table 0]).run.run numbered).2.world.table 1).vars =
        [("x", .int 0)] ∧
      (v.table 1).vars = [("x", .int 0)] := by
  intro t command prepared w v
  have hfacts : t.Factless reciting.registry numbered.current.play :=
    Task.factless_builtin (by decide) _
  have hworld : numbered.world.Factless := settled_numbered.factless
  have hbind : Task.bindAction reciting.registry numbered.current.play t "t" "var=x" [] =
      .ok prepared := by cbv
  have hrequests : ∀ r ∈ [Request.get 0], r.Observes := by simp [Request.Observes]
  obtain ⟨hturn, hjob⟩ := deferred_task_keeps_variables reciting rfl hfacts hworld
  obtain ⟨-, hvars, -⟩ := hjob "t" "var=x" [] prepared command hbind rfl "f" [.table 1] _ hrequests
  exact ⟨rfl, hfacts, hworld, hbind, hturn 1 _ 1 (by decide), hvars 1⟩

/-- A deferred command binds the play's variable, which a later task then sees. -/
theorem deferred_fact_reaches_play :
    let t : Task := { name := "t", command := "set_fact", args := "x=1", future := some "f" }
    let wait : Task := { name := "wait", command := "debug", args := "msg=\"\x7b\x7b f.x \x7d\x7d\"" }
    let see : Task := { name := "see", command := "debug", args := "var=x" }
    let book : Playbook :=
      { plays := [{ name := "p", tasks := [t, wait, see], vars := [("x", .int 0)] }] }
    t.isDeferred = true ∧ numbered.world.Factless ∧
      (((runTask reciting 1 t [.table 1, .table 0]).run.run numbered).2.world.table 1).vars =
        [("x", .int 1)] ∧
      (run reciting book { tables := #[{}], host := () }).error = none ∧
      (run reciting book { tables := #[{}], host := () }).world.recorded.toList.getLast? =
        some (see, TaskResult.ok.withField "x" (.int 1)) := by
  intro t wait see book
  have hworld : numbered.world.Factless := settled_numbered.factless
  exact ⟨rfl, hworld, by cbv, by cbv, by cbv⟩

end Runner

end PlaybookRunner
